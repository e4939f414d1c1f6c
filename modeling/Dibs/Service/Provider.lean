import Dibs.Mock.Protection
import Dibs.Service.System

/-!
# The watch service over the mock provider

The service of `Service/System.lean` with one mock provider for its bookings. The provider does what a
call of `get_booking`, `book_slot` or `reconcile_booking` asks for and answers (`serve`) in one step,
and the delivery receives the answer in a later one, or never: its deadline passes, the call raises
an error, or it crashes. What a search finds is arbitrary. Other users of the provider do anything but
book under the key of a watch.

`overtaken` is a ghost: it says that another delivery has booked for the watch since the provider last
answered this one. No step reads it.
-/

namespace Dibs

/-- Other users of the provider have keys of their own. -/
def MockOp.Foreign : MockOp → Prop
  | .book _ key _ => ¬ "watch:".toList <+: key.toList
  | _ => True

instance : DecidablePred MockOp.Foreign
  | .book _ key _ => inferInstanceAs (Decidable (¬ "watch:".toList <+: key.toList))
  | .publish _ _ | .getBooking _ | .reconcile _ | .release _ | .cleanup _ =>
    inferInstanceAs (Decidable True)

/-- The watch that a delivery works on. -/
def Task.watchId (task : Task) : Option String := task.claim.map fun c => c.watch.watchId

/-- A delivery does not receive the answer: its deadline passes, or the call raises an error that says
nothing about the booking. -/
def Input.Lost : Input → Prop
  | .failed .timeout | .failed (.raised (.other _)) => True
  | _ => False

instance : DecidablePred Input.Lost := fun input => by
  unfold Input.Lost
  split <;> infer_instance

/-- What a search returns. -/
def Input.isSlots : Input → Bool
  | .slots _ => true
  | _ => false

/-- A delivery receives the answer of the provider, or loses it. -/
def Task.Delivered (answer : Option Input) (input : Input) : Task → Prop
  | .replaying _ _ | .booking _ _ _ _ | .reconciling _ _ _ _ => answer = some input ∨ input.Lost
  | .searching _ _ => input.isSlots = true ∨ input.Lost
  | _ => True

instance (answer : Option Input) (input : Input) : DecidablePred (Task.Delivered answer input) :=
  fun task => by
    unfold Task.Delivered
    split <;> infer_instance

/-- `book_slot` returns a confirmation or raises. -/
def Input.ofBookSlot : Except AdapterError BookingConfirmation → Input
  | .ok confirmation => .confirmed confirmation
  | .error error => .failed (.raised error)

/-- What the provider answers to the call that a delivery awaits, and does. -/
def Task.serve (m : MockState) (now : Time) (bookingId : String) : Task → Option (Input × MockState)
  | .replaying c _ => some (.booking (m.getBooking (idempotencyKey c.watch.watchId) now), m)
  | .booking c _ slot _ =>
    let r := m.bookSlot slot.slotId (idempotencyKey c.watch.watchId) (.mock bookingId now) now
    some (.ofBookSlot r.1, r.2)
  | .reconciling c _ _ _ =>
    some (.reconciled (m.reconcileBooking (idempotencyKey c.watch.watchId) now), m)
  | _ => none

/-- The service, the provider, and the answers that were not received yet. -/
structure MockSys where
  sys : Sys
  mock : MockState
  answers : ℕ → Option Input
  overtaken : ℕ → Bool

/-- A step of the service, of the provider for a delivery, or of the provider for somebody else. -/
inductive MockLabel
  | sys (label : SysLabel)
  | serve (i : ℕ) (bookingId : String)
  | other (op : MockOp)

namespace MockSys

/-- The instant. -/
def now (s : MockSys) : Time := s.sys.store.now

/-- The row of a watch. -/
def row (s : MockSys) (u : String) : Row := s.sys.store.row u

/-- What the provider answers to a delivery, and does. -/
def reply (s : MockSys) (i : ℕ) (bookingId : String) : Option (Input × MockState) :=
  (s.sys.tasks i).serve s.mock s.now bookingId

/-- The state after the provider has served a delivery. -/
def serve (s : MockSys) (i : ℕ) (bookingId : String) : MockSys :=
  match s.reply i bookingId with
  | none => s
  | some (input, mock) => { s with
      mock := mock
      answers := Function.update s.answers i (some input)
      overtaken := fun j => if j = i then false else s.overtaken j ||
        (decide (mock ≠ s.mock) && decide ((s.sys.tasks j).watchId = (s.sys.tasks i).watchId)) }

/-- What a step of the service hands to a delivery is the answer that the provider gave it. -/
def Delivers (s : MockSys) : SysLabel → Prop
  | .resume i input _ => (s.sys.tasks i).Delivered (s.answers i) input
  | _ => True

instance (s : MockSys) : DecidablePred s.Delivers := fun label => by
  unfold Delivers
  split <;> infer_instance

/-- The answers that are left when a step of the service is about a coroutine. -/
def answersAfter (s : MockSys) (label : SysLabel) (j : ℕ) : Option Input :=
  if label.task = some j then none else s.answers j

end MockSys

/-- The machine of the service over the mock provider. -/
def mockSysMachine (svc : WatchService) : Machine MockSys MockLabel where
  init s := (sysMachine svc).init s.sys ∧
    (∃ capacity idleTtl retention pin, 0 < retention ∧ s.mock = .empty capacity idleTtl retention pin) ∧
    (∀ i, s.answers i = none) ∧ ∀ i, s.overtaken i = false
  allowed s
    | .sys label => (sysMachine svc).allowed s.sys label ∧ s.Delivers label
    | .serve i bookingId => s.answers i = none ∧ s.reply i bookingId ≠ none
    | .other op => op.Foreign
  exec
    | .sys label, s =>
      { s with sys := (sysMachine svc).exec label s.sys, answers := s.answersAfter label }
    | .serve i bookingId, s => s.serve i bookingId
    | .other op, s => { s with mock := s.mock.call s.now op }

instance (svc : WatchService) (s : MockSys) : DecidablePred ((mockSysMachine svc).allowed s)
  | .sys label => inferInstanceAs (Decidable ((sysMachine svc).allowed s.sys label ∧ s.Delivers label))
  | .serve i bookingId => inferInstanceAs (Decidable (s.answers i = none ∧ s.reply i bookingId ≠ none))
  | .other op => inferInstanceAs (Decidable op.Foreign)

theorem MockOp.Foreign.ne_key {slotId key : String} {factory : ConfirmationFactory}
    (h : (MockOp.book slotId key factory).Foreign) (u : String) : key ≠ idempotencyKey u := by
  rintro rfl
  exact h ⟨u.toList, by simp [idempotencyKey]⟩

theorem idempotencyKey_inj {u v : String} (h : idempotencyKey u = idempotencyKey v) : u = v := by
  have h' := congrArg String.toList h
  simp only [idempotencyKey, String.toList_append] at h'
  exact String.toList_inj.mp (List.append_cancel_left h')

namespace MockSys

variable {svc : WatchService}

/-- The provider holds a booking for a watch. -/
def Holds (s : MockSys) (u : String) : Prop := s.mock.getBooking (idempotencyKey u) s.now ≠ none

/-- A confirmation that the provider gave for a watch: it holds it until its retention ends. -/
def Genuine (s : MockSys) (u : String) (c : BookingConfirmation) : Prop :=
  s.now < c.createdAt + s.mock.retention →
    s.mock.bookings.get? (idempotencyKey u) = some ⟨c, c.createdAt + s.mock.retention⟩

/-- What the provider has told a delivery is true. -/
def Told (s : MockSys) (answer : Option Input) : Task → Prop
  | .replaying c _ => ∀ input, answer = some input → input = .booking none ∨
      ∃ confirmation, input = .booking (some confirmation) ∧ s.Genuine c.watch.watchId confirmation
  | .booking c _ _ _ => ∀ input, answer = some input → (∃ failure, input = .failed failure) ∨
      ∃ confirmation, input = .confirmed confirmation ∧ s.Genuine c.watch.watchId confirmation
  | .reconciling c _ _ _ => ∀ input, answer = some input → input = .reconciled .definitivelyAbsent ∨
      ∃ confirmation, input = .reconciled (.confirmed confirmation) ∧
        s.Genuine c.watch.watchId confirmation
  | .committing c (.booked confirmation _) _ => s.Genuine c.watch.watchId confirmation
  | .committing c (.found _) _ => c.watch.autoBook = false
  | _ => True

end MockSys

/-- The watch for which the provider's last word to a delivery was that it holds no booking. -/
def Task.denied (answer : Option Input) (task : Task) : Option String :=
  match task with
  | .replaying c _ => if answer = some (.booking none) then some c.watch.watchId else none
  | .searching c _ => if c.watch.autoBook then some c.watch.watchId else none
  | .permitting c _ _ | .checking c _ _ => some c.watch.watchId
  | .booking c _ _ _ =>
    match answer with
    | none | some (.failed _) => some c.watch.watchId
    | some _ => none
  | .reconciling c _ _ _ =>
    if answer = some (.reconciled .definitivelyAbsent) then some c.watch.watchId else none
  | .committing c .miss _ | .committing c .cancelled _ =>
    if c.watch.autoBook then some c.watch.watchId else none
  | _ => none

theorem Task.watchId_of_denied {answer : Option Input} {task : Task} {u : String}
    (h : task.denied answer = some u) : task.watchId = some u := by
  unfold denied at h
  split at h <;> (try split_ifs at h) <;> (try split at h) <;> simp_all [watchId, claim]

/-- An answer that is lost makes an outage. -/
theorem Failure.verdict_of_lost {failure : Failure} (h : (Input.failed failure).Lost) :
    ∃ error, failure.verdict = .outage error := by
  cases failure with
  | timeout => exact ⟨_, rfl⟩
  | raised error =>
    cases error with
    | other message => exact ⟨_, rfl⟩
    | slotNotFound | slotUnavailable => exact absurd h id

/-- The provider makes no error of its own but the refusal of a slot. -/
theorem MockSys.Told.lost {s : MockSys} {answer : Option Input} {task : Task} {c : WindowClaim}
    {now : Time} {failure : Failure} (htold : s.Told answer task)
    (hdel : task.Delivered answer (.failed failure))
    (hawait : task = .replaying c now ∨ task = .searching c now ∨
      ∃ left message, task = .reconciling c now left message) : (Input.failed failure).Lost := by
  rcases hawait with rfl | rfl | ⟨left, message, rfl⟩
  · refine hdel.resolve_left fun h => ?_
    rcases htold _ h with h' | ⟨confirmation, h', -⟩ <;> exact absurd h' (by simp)
  · exact hdel.resolve_left (by simp [Input.isSlots])
  · refine hdel.resolve_left fun h => ?_
    rcases htold _ h with h' | ⟨confirmation, h', -⟩ <;> exact absurd h' (by simp)

/-- The refusal of a slot is not lost. -/
theorem Input.not_lost_of_race {error : AdapterError} (h : error.isSlotRace = true) :
    ¬ (Input.failed (.raised error)).Lost := by
  cases error with
  | slotNotFound | slotUnavailable => exact id
  | other => contradiction

/-- Once the provider has denied a booking, the delivery goes on from there: it was denied one before a
step if it is after. -/
theorem Task.Step.denied {svc : WatchService} {store : Store} {offset : ℚ} {task task' : Task}
    {input : Input} {reply : Option Reply} (h : Task.Step svc store offset task input reply task')
    {s : MockSys} {answer : Option Input} (htold : s.Told answer task)
    (hdel : task.Delivered answer input) {u : String} (hd : task'.denied none = some u) :
    task.denied answer = some u := by
  cases h with
  | @noReplay c =>
    obtain rfl := hdel.resolve_right id
    have hauto : c.watch.autoBook = true ∧ c.watch.watchId = u := by simpa [Task.denied] using hd
    simp [Task.denied, hauto.2]
  | failed hawait =>
    -- The provider refuses nothing here, so this is an outage.
    obtain ⟨error, hverdict⟩ := Failure.verdict_of_lost (htold.lost hdel hawait)
    simp [Task.denied, Task.commit, hverdict] at hd
  | overdue => simp [Task.denied, Task.commit, Failure.verdict] at hd
  | nextSlot hrace | noSlotLeft hrace =>
    obtain rfl := hdel.resolve_right (Input.not_lost_of_race hrace)
    simpa [Task.denied] using hd
  | definitivelyAbsent =>
    obtain rfl := hdel.resolve_right id
    simpa [Task.denied] using hd
  | _ => simp_all [Task.denied, Task.commit]

/-- A delivery goes on with what the provider has told it. -/
theorem Task.Step.told {svc : WatchService} {store : Store} {offset : ℚ} {task task' : Task}
    {input : Input} {reply : Option Reply} (h : Task.Step svc store offset task input reply task')
    {s : MockSys} {answer : Option Input} (htold : s.Told answer task)
    (hdel : task.Delivered answer input) : s.Told none task' := by
  cases h with
  | replayed =>
    obtain rfl := hdel.resolve_right id
    rcases htold _ rfl with h | ⟨confirmation, h, hgenuine⟩
    · simp at h
    · injection h with h
      injection h with h
      exact h ▸ hgenuine
  | booked =>
    obtain rfl := hdel.resolve_right id
    rcases htold _ rfl with ⟨failure, h⟩ | ⟨confirmation, h, hgenuine⟩
    · simp at h
    · injection h with h
      exact h ▸ hgenuine
  | confirmed =>
    obtain rfl := hdel.resolve_right id
    rcases htold _ rfl with h | ⟨confirmation, h, hgenuine⟩
    · simp at h
    · injection h with h
      injection h with h
      exact h ▸ hgenuine
  | found hauto => exact hauto
  | failed hawait =>
    obtain ⟨error, hverdict⟩ := Failure.verdict_of_lost (htold.lost hdel hawait)
    simp [MockSys.Told, Task.commit, hverdict]
  | autoBook | noReplay | granted | nextSlot | ambiguous | stillUnknown => simp [MockSys.Told]
  | _ => trivial

namespace MockSys

/-- The provider holds a booking exactly when there is one that is not expired. -/
theorem holds_iff (s : MockSys) (u : String) : s.Holds u ↔
    ∃ b, s.mock.bookings.get? (idempotencyKey u) = some b ∧ s.now < b.protectedUntil := by
  unfold Holds
  rw [Option.ne_none_iff_exists']
  constructor
  · rintro ⟨c, hc⟩
    obtain ⟨b, hb, hlive, -⟩ := (MockState.getBooking_eq_some_iff _ _ _ _).mp hc
    exact ⟨b, hb, hlive⟩
  · rintro ⟨b, hb, hlive⟩
    exact ⟨b.confirmation, (MockState.getBooking_eq_some_iff _ _ _ _).mpr ⟨b, hb, hlive, rfl⟩⟩

/-- Time passes and the provider keeps what is not expired. -/
structure Evolves (s s' : MockSys) : Prop where
  /-- The clock does not run backwards. -/
  now : s.now ≤ s'.now
  /-- The retention is configuration. -/
  retention : s'.mock.retention = s.mock.retention
  /-- An unexpired booking stays. -/
  bookings : ∀ key b, s.mock.bookings.get? key = some b → s'.now < b.protectedUntil →
    s'.mock.bookings.get? key = some b

/-- A confirmation stays genuine. -/
theorem Genuine.mono {s s' : MockSys} (he : s.Evolves s') {u : String} {c : BookingConfirmation}
    (h : s.Genuine u c) : s'.Genuine u c := by
  intro hlive
  rw [he.retention] at hlive ⊢
  exact he.bookings _ _ (h (lt_of_le_of_lt he.now hlive)) hlive

/-- What a delivery was told stays true. -/
theorem Told.mono {s s' : MockSys} (he : s.Evolves s') {answer : Option Input} {task : Task}
    (h : s.Told answer task) : s'.Told answer task := by
  unfold Told at h ⊢
  split
  · exact fun input hi => (h input hi).imp_right fun ⟨c, hc, hg⟩ => ⟨c, hc, hg.mono he⟩
  · exact fun input hi => (h input hi).imp_right fun ⟨c, hc, hg⟩ => ⟨c, hc, hg.mono he⟩
  · exact fun input hi => (h input hi).imp_right fun ⟨c, hc, hg⟩ => ⟨c, hc, hg.mono he⟩
  · exact Genuine.mono he h
  · exact h
  · trivial

/-- The provider makes a booking for a delivery. -/
structure Books (s : MockSys) (i : ℕ) (bookingId : String) (u : String) : Prop where
  /-- The delivery works on the watch. -/
  watchId : (s.sys.tasks i).watchId = some u
  /-- The provider held no booking. -/
  notHeld : ¬ s.Holds u
  /-- It holds one now. -/
  held : (s.serve i bookingId).Holds u
  /-- This changes the provider. -/
  changed : (s.serve i bookingId).mock ≠ s.mock

/-- The mock knows whether there is a booking. -/
theorem reconcile_cases (m : MockState) (key : String) (now : Time) :
    (m.reconcileBooking key now = .definitivelyAbsent ∧ m.getBooking key now = none) ∨
    ∃ c, m.reconcileBooking key now = .confirmed c ∧ m.getBooking key now = some c := by
  unfold MockState.reconcileBooking MockState.getBooking
  cases m.bookings.get? key with
  | none => exact .inl ⟨rfl, rfl⟩
  | some b =>
    by_cases h : now < b.protectedUntil
    · exact .inr ⟨b.confirmation, by simp [h], by simp [not_le.mpr h]⟩
    · exact .inl ⟨by simp [h], by simp [not_lt.mp h]⟩

/-- The provider serves a delivery: it answers truthfully, and at most one booking is new. -/
structure Served (s : MockSys) (i : ℕ) (bookingId : String) (s' : MockSys) : Prop where
  /-- The tables stay guarded. -/
  guarded : s'.mock.Guarded s'.now
  /-- Unexpired bookings stay. -/
  evolves : s.Evolves s'
  /-- The answer is true. -/
  told : s'.Told (s'.answers i) (s.sys.tasks i)
  /-- A denial is true. -/
  denied : ∀ u, (s.sys.tasks i).denied (s'.answers i) = some u → ¬ s'.Holds u
  /-- A booking for a watch was there, or is the new one. -/
  bookings : ∀ u b, s'.mock.bookings.get? (idempotencyKey u) = some b →
    s.mock.bookings.get? (idempotencyKey u) = some b ∨
      (b.protectedUntil = b.confirmation.createdAt + s.mock.retention ∧ s.Books i bookingId u)

theorem serve_eq {s : MockSys} {i : ℕ} {bookingId : String} {input : Input} {mock : MockState}
    (h : s.reply i bookingId = some (input, mock)) : (s.serve i bookingId).mock = mock ∧
      (s.serve i bookingId).now = s.now ∧ (s.serve i bookingId).sys = s.sys ∧
      (s.serve i bookingId).answers = Function.update s.answers i (some input) := by
  unfold serve
  rw [h]
  exact ⟨rfl, rfl, rfl, rfl⟩

/-- A delivery that stays not overtaken is not overtaken by this booking. -/
theorem serve_overtaken {s : MockSys} {i : ℕ} {bookingId : String} (hne : s.reply i bookingId ≠ none)
    {j : ℕ} (hj : j ≠ i) (h : (s.serve i bookingId).overtaken j = false) : s.overtaken j = false ∧
      ((s.serve i bookingId).mock ≠ s.mock → (s.sys.tasks j).watchId ≠ (s.sys.tasks i).watchId) := by
  obtain ⟨⟨input, mock⟩, hreply⟩ := Option.ne_none_iff_exists'.mp hne
  rw [(serve_eq hreply).1]
  simp only [serve, hreply, if_neg hj] at h
  simpa using h

/-- A booking dated by its confirmation makes this genuine. -/
theorem genuine_of_get {s : MockSys} {u : String} {b : Booking}
    (h : s.mock.bookings.get? (idempotencyKey u) = some b)
    (hdated : b.protectedUntil = b.confirmation.createdAt + s.mock.retention) :
    s.Genuine u b.confirmation := by
  intro _
  rw [h, ← hdated]

/-- The provider answers and changes nothing. -/
theorem Served.of_same {s : MockSys} (hg : s.mock.Guarded s.now) {i : ℕ} {bookingId : String}
    {input : Input} (hreply : s.reply i bookingId = some (input, s.mock))
    (htold : s.Told (some input) (s.sys.tasks i))
    (hdenied : ∀ u, (s.sys.tasks i).denied (some input) = some u → ¬ s.Holds u) :
    s.Served i bookingId (s.serve i bookingId) := by
  obtain ⟨hmock, hnow, -, hanswers⟩ := serve_eq hreply
  have hanswer : (s.serve i bookingId).answers i = some input := by rw [hanswers, Function.update_self]
  have hevolves : s.Evolves (s.serve i bookingId) :=
    ⟨hnow.ge, by rw [hmock], fun _ _ hb _ => by rw [hmock]; exact hb⟩
  refine ⟨by rw [hmock, hnow]; exact hg, hevolves, by rw [hanswer]; exact htold.mono hevolves,
    fun u hu => ?_, fun u b hb => .inl (hmock ▸ hb)⟩
  rw [hanswer] at hu
  have hsame : (s.serve i bookingId).Holds u ↔ s.Holds u := by rw [holds_iff, holds_iff, hmock, hnow]
  rw [hsame]
  exact hdenied u hu

/-- `get_booking` and `reconcile_booking` answer truthfully and change nothing; `book_slot` replays an
unexpired booking, refuses the slot, or makes the booking. -/
theorem serve_served {s : MockSys} (hg : s.mock.Guarded s.now)
    (hdated : ∀ u b, s.mock.bookings.get? (idempotencyKey u) = some b →
      b.protectedUntil = b.confirmation.createdAt + s.mock.retention) {i : ℕ} {bookingId : String}
    (hne : s.reply i bookingId ≠ none) : s.Served i bookingId (s.serve i bookingId) := by
  have hgenuine : ∀ u c, s.mock.getBooking (idempotencyKey u) s.now = some c → s.Genuine u c := by
    intro u c hc
    obtain ⟨b, hb, -, rfl⟩ := (MockState.getBooking_eq_some_iff _ _ _ _).mp hc
    exact genuine_of_get hb (hdated u b hb)
  cases htask : s.sys.tasks i with
  | replaying c now =>
    have hreply : s.reply i bookingId =
        some (.booking (s.mock.getBooking (idempotencyKey c.watch.watchId) s.now), s.mock) := by
      simp [reply, htask, Task.serve]
    refine .of_same hg hreply ?_ fun u hu => ?_
    · rw [htask]
      rintro input ⟨⟩
      cases hget : s.mock.getBooking (idempotencyKey c.watch.watchId) s.now with
      | none => exact .inl rfl
      | some confirmation => exact .inr ⟨confirmation, rfl, hgenuine _ _ hget⟩
    · simp only [htask, Task.denied] at hu
      split_ifs at hu with hnone
      obtain rfl := Option.some.inj hu
      exact not_not.mpr (Input.booking.inj (Option.some.inj hnone))
  | reconciling c now left error =>
    have hreply : s.reply i bookingId =
        some (.reconciled (s.mock.reconcileBooking (idempotencyKey c.watch.watchId) s.now), s.mock) := by
      simp [reply, htask, Task.serve]
    refine .of_same hg hreply ?_ fun u hu => ?_
    · rw [htask]
      rintro input ⟨⟩
      rcases reconcile_cases s.mock (idempotencyKey c.watch.watchId) s.now with ⟨h, -⟩ | ⟨conf, h, hget⟩
      · exact .inl (by rw [h])
      · exact .inr ⟨conf, by rw [h], hgenuine _ _ hget⟩
    · simp only [htask, Task.denied] at hu
      split_ifs at hu with habsent
      obtain rfl := Option.some.inj hu
      rcases reconcile_cases s.mock (idempotencyKey c.watch.watchId) s.now with ⟨-, hget⟩ | ⟨conf, h, -⟩
      · exact not_not.mpr hget
      · simp [h] at habsent
  | booking c now slot rest =>
    have hreply : s.reply i bookingId = some
        (.ofBookSlot (s.mock.bookSlot slot.slotId (idempotencyKey c.watch.watchId) (.mock bookingId s.now)
          s.now).1,
        (s.mock.bookSlot slot.slotId (idempotencyKey c.watch.watchId) (.mock bookingId s.now) s.now).2) := by
      simp [reply, htask, Task.serve]
    rcases MockState.bookSlot_cases s.mock slot.slotId (idempotencyKey c.watch.watchId)
      (.mock bookingId s.now) s.now with ⟨b, hb, hlive, he⟩ | ⟨hexp, ⟨error, he⟩ | ⟨entry, hentry, -, he⟩⟩
    · -- The booking is there already.
      rw [he] at hreply
      refine .of_same hg hreply ?_ (by simp [htask, Task.denied, Input.ofBookSlot])
      rw [htask]
      rintro input ⟨⟩
      exact .inr ⟨b.confirmation, rfl, genuine_of_get hb (hdated _ b hb)⟩
    · -- The slot is refused, so there is no booking.
      rw [he] at hreply
      refine .of_same hg hreply ?_ fun u hu => ?_
      · rw [htask]
        rintro input ⟨⟩
        exact .inl ⟨_, rfl⟩
      · obtain rfl : c.watch.watchId = u := by simpa [htask, Task.denied, Input.ofBookSlot] using hu
        rw [holds_iff]
        rintro ⟨b, hb, hlive⟩
        exact absurd (hexp b hb) (not_le.mpr hlive)
    · -- The booking is new.
      obtain ⟨hmock, hnow, hsys, hanswers⟩ := serve_eq hreply
      obtain ⟨hguarded, hkept⟩ := hg.call (.book slot.slotId (idempotencyKey c.watch.watchId)
        (.mock bookingId s.now))
      have hcall : (s.serve i bookingId).mock = s.mock.call s.now (.book slot.slotId
          (idempotencyKey c.watch.watchId) (.mock bookingId s.now)) := hmock
      have hnew : (s.serve i bookingId).mock.bookings.get? (idempotencyKey c.watch.watchId) =
          some ⟨⟨bookingId, "mock", .mockConfirmed, entry.slot, s.now⟩, s.now + s.mock.retention⟩ := by
        rw [hmock, he]
        simp [ConfirmationFactory.mock]
      have hretention : (s.serve i bookingId).mock.retention = s.mock.retention := by rw [hmock, he]
      have hlive : s.now < s.now + s.mock.retention := lt_add_of_pos_right _ hg.retention
      have hnot : ¬ s.Holds c.watch.watchId := by
        rw [holds_iff]
        rintro ⟨b, hb, hlive⟩
        exact absurd (hexp b hb) (not_le.mpr hlive)
      have hheld : (s.serve i bookingId).Holds c.watch.watchId := by
        rw [holds_iff, hnow]
        exact ⟨_, hnew, hlive⟩
      have hbooks : s.Books i bookingId c.watch.watchId := by
        refine ⟨by simp [htask, Task.watchId, Task.claim], hnot, hheld, fun hsame => hnot ?_⟩
        rw [holds_iff] at hheld ⊢
        rwa [hsame, hnow] at hheld
      refine ⟨by rw [hcall, hnow]; exact hguarded, ⟨hnow.ge, hretention, fun key b hb hlive' => ?_⟩, ?_,
        ?_, fun u b hb => ?_⟩
      · rw [hcall]
        exact hkept key b hb (hnow ▸ hlive')
      · rw [hanswers, Function.update_self, htask, he]
        rintro input ⟨⟩
        refine .inr ⟨⟨bookingId, "mock", .mockConfirmed, entry.slot, s.now⟩, rfl, fun _ => ?_⟩
        rw [hnew, hretention]
      · rw [hanswers, Function.update_self, htask, he]
        simp [Task.denied, Input.ofBookSlot]
      · by_cases hkey : idempotencyKey c.watch.watchId = idempotencyKey u
        · obtain rfl := idempotencyKey_inj hkey
          obtain rfl := Option.some.inj (hnew.symm.trans hb)
          exact .inr ⟨rfl, hbooks⟩
        · rw [hmock, he] at hb
          simp only [Dict.get?_insert, if_neg hkey] at hb
          exact .inl hb
  | _ => exact absurd (by simp [reply, htask, Task.serve]) hne

/-- Other users of the provider make no booking for a watch. -/
theorem bookings_of_foreign {m : MockState} {now : Time} (hg : m.Guarded now) {op : MockOp}
    (hf : op.Foreign) {u : String} {b : Booking}
    (h : (m.call now op).bookings.get? (idempotencyKey u) = some b) :
    m.bookings.get? (idempotencyKey u) = some b := by
  cases op with
  | getBooking | reconcile | release => exact h
  | publish candidates operationId =>
    exact (MockState.publish_keeps hg.slots candidates operationId now).no_new _ _ h
  | cleanup batchSize => exact (MockState.cleanup_keeps m now batchSize).no_new _ _ h
  | book slotId key factory =>
    change (m.bookSlot slotId key factory now).2.bookings.get? _ = _ at h
    rcases MockState.bookSlot_cases m slotId key factory now with
      ⟨_, -, -, he⟩ | ⟨-, ⟨error, he⟩ | ⟨entry, -, -, he⟩⟩ <;> rw [he] at h
    · exact h
    · exact h
    · simpa [Dict.get?_insert, hf.ne_key u] using h

/-- Every step keeps what is not expired. -/
theorem evolves {svc : WatchService} {s : MockSys} (hg : s.mock.Guarded s.now)
    (hdated : ∀ u b, s.mock.bookings.get? (idempotencyKey u) = some b →
      b.protectedUntil = b.confirmation.createdAt + s.mock.retention) {label : MockLabel}
    (ha : (mockSysMachine svc).allowed s label) : s.Evolves ((mockSysMachine svc).exec label s) := by
  cases label with
  | sys label =>
    refine ⟨?_, rfl, fun _ _ hb _ => hb⟩
    rcases Sys.exec_store svc s.sys label with he | ⟨now, rfl, he⟩
    · change s.sys.store.now ≤ ((sysMachine svc).exec label s.sys).store.now
      rw [he]
      cases s.sys.op label <;> exact le_rfl
    · exact ha.1
  | serve i bookingId => exact (serve_served hg hdated ha.2).evolves
  | other op =>
    exact ⟨le_rfl, hg.call_retention op, (hg.call op).2⟩

end MockSys

end Dibs
