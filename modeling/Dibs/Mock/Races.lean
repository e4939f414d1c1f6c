import Dibs.Lib.Machine
import Dibs.Mock.Index
import Dibs.Mock.Repository

/-!
# Races for the slots of the mock provider

`book_slot` reads the slot, builds its confirmation, and hands it to `BOOK_SLOT`. The script looks whether
the slot is there, not whether it is the one that was read. So a booking keeps what it confirms exactly
when the slot was there at the read, and is the same document still (`bookings_sound_iff`): a slot that is
published between the two is booked under the empty text, and the call raises.

A tombstone whose key has a bar does not read as one, so it has to be without: the script that meets
it fails.
-/

namespace Dibs

/-- Where a client's call of `book_slot` or `get_booking` stands. -/
inductive MockClient
  /-- No call. -/
  | idle
  /-- `book_slot` is about to read the slot. -/
  | bookRead (slotId key : String) (factory : ConfirmationFactory) (now : Time)
  /-- It is about to run its script. -/
  | bookSend (slotId key : String) (factory : ConfirmationFactory) (now : Time)
      (raw : Option AvailabilitySlot)
  /-- `get_booking` is about to read the booking. -/
  | getRead (key : String) (now : Time)
  /-- It is about to read the deadline. -/
  | getScore (key : String) (now : Time) (raw : Option (Option BookingConfirmation))
  /-- `get_booking` has returned. -/
  | got (answer : Option (Option BookingConfirmation))

/-- Whether no call is in flight. -/
def MockClient.isFree : MockClient → Bool
  | .idle | .got _ => true
  | _ => false

/-- One run of `BOOK_SLOT`. -/
structure BookRun where
  factory : ConfirmationFactory
  /-- The slot that was there before it and not after. -/
  removed : Option AvailabilitySlot
  /-- The text that it stored under its booking key, if it stored one. -/
  stored : Option (Option BookingConfirmation)
  /-- What `book_slot` returns or raises of the adapter's errors. -/
  answer : Option (Except AdapterError BookingConfirmation)

/-- The confirmation of the slot that a run removed. -/
def BookRun.confirmation (run : BookRun) : Option BookingConfirmation := run.removed.map run.factory.build

/-- The text that a reply reports as stored. -/
def BookReply.stored : BookReply → Option (Option BookingConfirmation)
  | .booked text => some text
  | _ => none

/-- The run of a booking's script. -/
def bookRun (limits : MockLimits) (db : MockDb) (slotId key : String) (factory : ConfirmationFactory)
    (now : Time) (raw : Option AvailabilitySlot) : BookRun :=
  let out := db.sendBooking limits slotId key factory now raw
  { factory := factory
    removed := (db.slots.get? slotId).filter fun _ => !out.2.slots.contains slotId
    stored := out.1.bind BookReply.stored
    answer := bookAnswer slotId out.1 }

/-- The store with its clients, and the bookings' scripts that have run, newest first. -/
structure MockClients where
  limits : MockLimits
  db : MockDb
  clients : ℕ → MockClient
  runs : List BookRun

/-- What happens next. -/
inductive ClientLabel
  /-- A client calls `book_slot`. -/
  | book (i : ℕ) (slotId key : String) (factory : ConfirmationFactory) (now : Time)
  /-- A client calls `get_booking`. -/
  | get (i : ℕ) (key : String) (now : Time)
  /-- A client's call makes its next step. -/
  | step (i : ℕ)
  | publish (candidates : List AvailabilitySlot) (operationId : String) (now : Time)
  | release (operationId : String)
  | cleanup (now : Time) (batchSize : ℕ)
  /-- A time to live ends. -/
  | expire (key : MockKey)

namespace MockClients

/-- The next step of a client's call. -/
def advance (s : MockClients) (i : ℕ) : MockClients :=
  let become (client : MockClient) := Function.update s.clients i client
  match s.clients i with
  | .bookRead slotId key factory now =>
    { s with clients := become (.bookSend slotId key factory now (s.db.slots.get? slotId)) }
  | .bookSend slotId key factory now raw =>
    { s with
      db := (s.db.sendBooking s.limits slotId key factory now raw).2
      clients := become .idle
      runs := bookRun s.limits s.db slotId key factory now raw :: s.runs }
  | .getRead key now => { s with clients := become (.getScore key now (s.db.bookings.get? key)) }
  | .getScore key now raw => { s with clients := become (.got (getAnswer now raw (s.db.bookExp.get? key))) }
  | .idle | .got _ => s

/-- Executing a label. -/
def exec : ClientLabel → MockClients → MockClients
  | .book i slotId key factory now, s =>
    { s with clients := Function.update s.clients i (.bookRead slotId key factory now) }
  | .get i key now, s => { s with clients := Function.update s.clients i (.getRead key now) }
  | .step i, s => s.advance i
  | .publish candidates operationId now, s =>
    { s with db := (s.db.publishAndFilter s.limits candidates operationId now).2 }
  | .release operationId, s => { s with db := s.db.releaseScript operationId }
  | .cleanup now batchSize, s => { s with db := (s.db.cleanup s.limits now batchSize).2 }
  | .expire key, s => { s with db := s.db.expire key }

/-- A client starts a call when it has none, and steps when it has one. -/
def Allowed (s : MockClients) : ClientLabel → Prop
  | .book i .. | .get i .. => (s.clients i).isFree = true
  | .step i => (s.clients i).isFree = false
  | _ => True

instance (s : MockClients) : ∀ label, Decidable (s.Allowed label)
  | .book i .. | .get i .. => inferInstanceAs (Decidable ((s.clients i).isFree = true))
  | .step i => inferInstanceAs (Decidable ((s.clients i).isFree = false))
  | .publish .. | .release _ | .cleanup .. | .expire _ => inferInstanceAs (Decidable True)

end MockClients

/-- Any number of clients of one store, with their steps in any order. -/
def mockClientsMachine : Machine MockClients ClientLabel where
  init s := s.db = .empty ∧ (∀ i, s.clients i = .idle) ∧ s.runs = []
  allowed := MockClients.Allowed
  exec := MockClients.exec

/-- A run stores nothing but the confirmation of the slot that it removed. -/
def BookRun.Sound (run : BookRun) : Prop :=
  ∀ text, run.stored = some text → ∃ slot, run.removed = some slot ∧ text = some (run.factory.build slot)

/-- A run's call returns the confirmation of a slot that a run removed, or raises an error of an expected
slot race. -/
def BookRun.Answers (run : BookRun) (runs : List BookRun) : Prop :=
  (∃ c, run.answer = some (.ok c) ∧ ∃ run' ∈ runs, run'.confirmation = some c) ∨
    ∃ error, run.answer = some (.error error) ∧ error.isSlotRace = true

namespace MockClients

/-- Every run of `BOOK_SLOT` so far has been sound, and so has the answer of its call. -/
def Sound (s : MockClients) : Prop := ∀ run ∈ s.runs, run.Sound ∧ run.Answers s.runs

/-- The booking's script that runs next, if one does, replays a booking, or meets a tombstone that it can
read and, if it comes to book the slot, the slot that was read. -/
def Steady (s : MockClients) : ClientLabel → Prop
  | .step i =>
    match s.clients i with
    | .bookSend slotId key _ now raw => s.db.protectedBooking key (toMs now) = none →
      ∃ taken, s.db.takenByOther slotId key (toMs now) = some taken ∧
        (taken = false → ∀ slot, s.db.slots.get? slotId = some slot → raw = some slot)
    | _ => True
  | _ => True

/-- Every text under a booking key was stored by a run. -/
def Stored (s : MockClients) : Prop :=
  ∀ key text, s.db.bookings.get? key = some text → ∃ run ∈ s.runs, run.stored = some text

/-- A step without a booking's script leaves the runs, and no booking that was not there. -/
theorem exec_quiet {s : MockClients} {label : ClientLabel}
    (h : ∀ i slotId key factory now raw, label = .step i →
      s.clients i ≠ .bookSend slotId key factory now raw) :
    (exec label s).runs = s.runs ∧
      ∀ key text, (exec label s).db.bookings.get? key = some text → s.db.bookings.get? key = some text := by
  have hsame : ∀ {db : MockDb}, db.records = s.db.records → ∀ key text,
      db.bookings.get? key = some text → s.db.bookings.get? key = some text := by
    intro db hdb key text htext
    have hbookings : db.records.bookings = s.db.records.bookings := congrArg MockDb.bookings hdb
    exact (congrArg (Dict.get? · key) hbookings).symm.trans htext
  cases label with
  | book | get => exact ⟨rfl, fun _ _ h => h⟩
  | step i =>
    simp only [exec, advance]
    cases hclient : s.clients i with
    | bookSend slotId key factory now raw => exact absurd hclient (h i slotId key factory now raw rfl)
    | _ => exact ⟨rfl, fun _ _ h => h⟩
  | publish candidates operationId now => exact ⟨rfl, hsame (MockDb.records_publishScript ..)⟩
  | release operationId => exact ⟨rfl, hsame (MockDb.records_releaseScript ..)⟩
  | cleanup now batchSize =>
    refine ⟨rfl, fun key text htext => ?_⟩
    have hbookings : (s.db.cleanup s.limits now batchSize).2.records.bookings = _ :=
      congrArg MockDb.bookings
        (s.db.records_cleanupScript (toMs now) (toMs now - s.limits.idleTtlMs) batchSize)
    have hget := (congrArg (Dict.get? · key) hbookings).symm.trans htext
    dsimp only at hget
    rw [MockState.get?_eraseAll] at hget
    split_ifs at hget
    exact hget
  | expire expired =>
    refine ⟨rfl, fun key text htext => ?_⟩
    cases expired with
    | booking key' =>
      change (s.db.bookings.erase key').get? key = some text at htext
      rw [Dict.get?_erase] at htext
      split_ifs at htext
      exact htext
    | booked | pinOp => exact htext

/-- What the script of a booking does, as a run of it. -/
theorem bookRun_spec (limits : MockLimits) (db : MockDb) (slotId key : String)
    (factory : ConfirmationFactory) (now : Time) (raw : Option AvailabilitySlot) :
    (∃ text, db.protectedBooking key (toMs now) = some text ∧
      bookRun limits db slotId key factory now raw = ⟨factory, none, none, text.map .ok⟩ ∧
      (db.sendBooking limits slotId key factory now raw).2 = db) ∨
    db.protectedBooking key (toMs now) = none ∧
      (db.takenByOther slotId key (toMs now) = none ∧
        bookRun limits db slotId key factory now raw = ⟨factory, none, none, none⟩ ∧
        (db.sendBooking limits slotId key factory now raw).2 = db ∨
      (∃ taken, db.takenByOther slotId key (toMs now) = some taken ∧
        (taken = false → db.slots.get? slotId = none)) ∧
        (∃ error, error.isSlotRace = true ∧
          bookRun limits db slotId key factory now raw = ⟨factory, none, none, some (.error error)⟩) ∧
        (db.sendBooking limits slotId key factory now raw).2 = db ∨
      db.takenByOther slotId key (toMs now) = some false ∧
        ∃ slot, db.slots.get? slotId = some slot ∧
          bookRun limits db slotId key factory now raw =
            ⟨factory, some slot, some (raw.map factory.build), (raw.map factory.build).map .ok⟩ ∧
          (db.sendBooking limits slotId key factory now raw).2 =
            db.book slotId key (raw.map factory.build) (toMs now + limits.retentionMs)) := by
  have hkept : (db.slots.get? slotId).filter (fun _ => !db.slots.contains slotId) = none := by
    cases hslot : db.slots.get? slotId <;> simp [Option.filter, hslot]
  -- A script that changes nothing removes no slot.
  have hsame : ∀ {reply : Option BookReply},
      db.sendBooking limits slotId key factory now raw = (reply, db) →
      bookRun limits db slotId key factory now raw =
        ⟨factory, none, reply.bind BookReply.stored, bookAnswer slotId reply⟩ ∧
      (db.sendBooking limits slotId key factory now raw).2 = db := by
    intro reply h
    refine ⟨?_, congrArg Prod.snd h⟩
    simp only [bookRun, h, hkept]
  rcases db.bookScript_spec slotId key (raw.map factory.build) (toMs now + limits.retentionMs) (toMs now)
    with ⟨text, hprotected, h⟩ | ⟨hprotected, ⟨htaken, h⟩ | ⟨htaken, h⟩ |
      ⟨htaken, ⟨hslot, h⟩ | ⟨slot, hslot, h⟩⟩⟩
  · exact .inl ⟨text, hprotected, hsame h⟩
  · exact .inr ⟨hprotected, .inl ⟨htaken, hsame h⟩⟩
  · refine .inr ⟨hprotected, .inr (.inl ⟨⟨true, htaken, fun h => by contradiction⟩, ⟨_, ?_, (hsame h).1⟩,
      (hsame h).2⟩)⟩
    rfl
  · refine .inr ⟨hprotected, .inr (.inl ⟨⟨false, htaken, fun _ => hslot⟩, ⟨_, ?_, (hsame h).1⟩,
      (hsame h).2⟩)⟩
    rfl
  · refine .inr ⟨hprotected, .inr (.inr ⟨htaken, slot, hslot, ?_, congrArg Prod.snd h⟩)⟩
    have hgone : (db.book slotId key (raw.map factory.build) (toMs now + limits.retentionMs)).slots =
        db.slots.erase slotId :=
      congrArg MockDb.slots (MockDb.rest_disown _ slotId)
    have hsend : db.sendBooking limits slotId key factory now raw = _ := h
    simp only [bookRun, hsend, hgone, hslot]
    simp [Option.filter, BookReply.stored, bookAnswer]

variable {s : MockClients} {i : ℕ} {slotId key : String} {factory : ConfirmationFactory} {now : Time}
  {raw : Option AvailabilitySlot}

/-- A step is that of a booking's script, or leaves the runs and the bookings. -/
theorem send_or_quiet (s : MockClients) (label : ClientLabel) :
    (∃ i slotId key factory now raw, label = .step i ∧
      s.clients i = .bookSend slotId key factory now raw) ∨
    ((exec label s).runs = s.runs ∧ ∀ key text, (exec label s).db.bookings.get? key = some text →
      s.db.bookings.get? key = some text) := by
  by_cases h : ∃ i slotId key factory now raw, label = .step i ∧
      s.clients i = .bookSend slotId key factory now raw
  · exact .inl h
  · refine .inr (exec_quiet fun i slotId key factory now raw hlabel hclient => h ?_)
    exact ⟨i, slotId, key, factory, now, raw, hlabel, hclient⟩

/-- The step of a booking's script adds its run. -/
theorem exec_send (h : s.clients i = .bookSend slotId key factory now raw) :
    (exec (.step i) s).db = (s.db.sendBooking s.limits slotId key factory now raw).2 ∧
      (exec (.step i) s).runs = bookRun s.limits s.db slotId key factory now raw :: s.runs := by
  simp [exec, advance, h]

/-- Every text under a booking key stays one that a run stored. -/
theorem stored_exec (hs : s.Stored) (label : ClientLabel) : (exec label s).Stored := by
  intro key' text htext
  rcases send_or_quiet s label with ⟨i, slotId, key, factory, now, raw, rfl, hclient⟩ | ⟨hruns, hquiet⟩
  · obtain ⟨hdb, hruns⟩ := exec_send hclient
    rw [hdb] at htext
    rw [hruns]
    -- A text that was there before was stored by an earlier run.
    have hold : s.db.bookings.get? key' = some text →
        ∃ run ∈ bookRun s.limits s.db slotId key factory now raw :: s.runs, run.stored = some text := by
      intro h
      obtain ⟨run, hrun, hstored⟩ := hs key' text h
      exact ⟨run, List.mem_cons_of_mem _ hrun, hstored⟩
    rcases bookRun_spec s.limits s.db slotId key factory now raw with ⟨-, -, -, hsame⟩ |
      ⟨-, ⟨-, -, hsame⟩ | ⟨-, -, hsame⟩ | ⟨-, slot, -, hrun, hbook⟩⟩
    · exact hold (hsame ▸ htext)
    · exact hold (hsame ▸ htext)
    · exact hold (hsame ▸ htext)
    · rw [hbook, MockDb.bookings_book, Dict.get?_insert] at htext
      split_ifs at htext with hkey
      · exact ⟨_, List.mem_cons_self, by rw [hrun, htext]⟩
      · exact hold htext
  · rw [hruns]
    exact hs key' text (hquiet key' text htext)

/-- A call's answer stays accounted for when more scripts run. -/
theorem answers_cons {run : BookRun} {runs : List BookRun} (h : run.Answers runs) (run' : BookRun) :
    run.Answers (run' :: runs) := by
  rcases h with ⟨c, hanswer, run, hrun, hc⟩ | h
  · exact .inl ⟨c, hanswer, run, List.mem_cons_of_mem _ hrun, hc⟩
  · exact .inr h

/-- A steady script is sound, and so is the answer of its call. -/
theorem sound_of_steady (hstored : s.Stored) (hs : s.Sound)
    (hclient : s.clients i = .bookSend slotId key factory now raw) (hsteady : s.Steady (.step i)) :
    (exec (.step i) s).Sound := by
  obtain ⟨-, hruns⟩ := exec_send hclient
  simp only [Steady, hclient] at hsteady
  unfold Sound
  rw [hruns, List.forall_mem_cons]
  refine ⟨?_, fun run hrun => ⟨(hs run hrun).1, answers_cons (hs run hrun).2 _⟩⟩
  rcases bookRun_spec s.limits s.db slotId key factory now raw with ⟨text, hprotected, hrun, -⟩ |
    ⟨hnone, ⟨htaken, -⟩ | ⟨-, ⟨error, herror, hrun⟩, -⟩ | ⟨htaken, slot, hslot, hrun, -⟩⟩ 
  · -- A replay: the text was stored by a sound run.
    obtain ⟨run, hmem, htext⟩ := hstored key text (Option.filter_eq_some_iff.mp hprotected).1
    obtain ⟨slot, hremoved, rfl⟩ := (hs run hmem).1 text htext
    rw [hrun]
    refine ⟨fun _ h => by contradiction, .inl ⟨run.factory.build slot, rfl, run, List.mem_cons_of_mem _ hmem, ?_⟩⟩
    rw [BookRun.confirmation, hremoved, Option.map_some]
  · obtain ⟨taken, hsome, -⟩ := hsteady hnone
    rw [htaken] at hsome
    contradiction
  · rw [hrun]
    exact ⟨fun _ h => by contradiction, .inr ⟨error, rfl, herror⟩⟩
  · obtain ⟨taken, hsome, hread⟩ := hsteady hnone
    obtain rfl : false = taken := Option.some.inj (htaken.symm.trans hsome)
    obtain rfl := hread rfl slot hslot
    rw [hrun]
    refine ⟨?_, .inl ⟨factory.build slot, rfl, _, List.mem_cons_self, rfl⟩⟩
    intro text htext
    exact ⟨slot, rfl, (Option.some.inj htext).symm⟩

/-- A script that is not steady fails, or books what was not read. -/
theorem not_sound_of_not_steady (hclient : s.clients i = .bookSend slotId key factory now raw)
    (hsteady : ¬ s.Steady (.step i)) : ¬ (exec (.step i) s).Sound := by
  intro hsound
  obtain ⟨-, hruns⟩ := exec_send hclient
  simp only [Steady, hclient] at hsteady
  obtain ⟨hrunSound, hrunAnswers⟩ := hsound (bookRun s.limits s.db slotId key factory now raw)
    (by rw [hruns]; exact List.mem_cons_self)
  apply hsteady
  intro hnone
  rcases bookRun_spec s.limits s.db slotId key factory now raw with ⟨text, hprotected, -⟩ |
    ⟨-, ⟨-, hrun, -⟩ | ⟨⟨taken, htaken, hfree⟩, -⟩ | ⟨htaken, slot, hslot, hrun, -⟩⟩
  · rw [hnone] at hprotected
    contradiction
  · rw [hrun] at hrunAnswers
    rcases hrunAnswers with ⟨c, hc, -⟩ | ⟨error, herror, -⟩ <;> contradiction
  · refine ⟨taken, htaken, fun htaken slot hslot => ?_⟩
    rw [hfree htaken] at hslot
    contradiction
  · refine ⟨false, htaken, fun _ slot' hslot' => ?_⟩
    obtain rfl : slot = slot' := Option.some.inj (hslot.symm.trans hslot')
    rw [hrun] at hrunSound
    obtain ⟨removed, hremoved, hbuilt⟩ := hrunSound _ rfl
    obtain rfl := Option.some.inj hremoved
    -- The confirmation tells the slot that it was built from.
    obtain ⟨read, rfl, hread⟩ := Option.map_eq_some_iff.mp hbuilt
    have hslots := congrArg BookingConfirmation.slot hread
    rw [factory.slot_eq, factory.slot_eq] at hslots
    rw [hslots]

/-- The bookings are sound exactly as long as every booking's script is steady. -/
theorem sound_exactlyWhen : mockClientsMachine.ExactlyWhen Sound Steady where
  holds s hs := by
    have hboth : s.Stored ∧ s.Sound := by
      refine hs.invariant (P := fun s => s.Stored ∧ s.Sound) ?_ fun s label _ h ha => ?_
      · rintro s ⟨hdb, -, hruns⟩
        constructor
        · intro key text htext
          rw [hdb] at htext
          contradiction
        · intro run hrun
          rw [hruns] at hrun
          contradiction
      · refine ⟨stored_exec h.1 label, ?_⟩
        rcases send_or_quiet s label with ⟨i, slotId, key, factory, now, raw, rfl, hclient⟩ | ⟨hruns, -⟩
        · exact sound_of_steady h.1 h.2 hclient ha.2
        · change (exec label s).Sound
          unfold Sound
          rw [hruns]
          exact h.2
    exact hboth.2
  breaks s label _ _ hbad := by
    cases label with
    | step i =>
      cases hclient : s.clients i with
      | bookSend slotId key factory now raw => exact not_sound_of_not_steady hclient hbad
      | _ => exact absurd (by simp [Steady, hclient]) hbad
    | _ => exact absurd trivial hbad

/-- In every state of a run, every text stored under a booking key is the confirmation of the slot that
was removed with it, and every `book_slot` has returned such a confirmation or raised an error of an
expected slot race, if and only if each booking's script either replays a booking, or meets a tombstone
that it can read and, if it comes to book the slot, the slot that was read. -/
theorem bookings_sound_iff (hs : mockClientsMachine.init s) {labels : List ClientLabel}
    (hr : mockClientsMachine.Runs s labels) :
    mockClientsMachine.Always Sound s labels ↔ mockClientsMachine.EachStep Steady s labels :=
  sound_exactlyWhen.always_iff hs hr

/-- An empty store without calls. -/
def fresh : MockClients := ⟨⟨8, 600000, 3600000, 120000⟩, .empty, fun _ => .idle, []⟩

theorem fresh_init : mockClientsMachine.init fresh := ⟨rfl, fun _ => rfl, rfl⟩

/-- A run in which a slot is published between the two steps of a booking. -/
def lateSlotRun : List ClientLabel :=
  [.book 0 "s1" "a" (.mock "A" 0) 0, .step 0, .publish [.sample "s1"] "op" 0, .step 0]

/-- The state after the run `lateSlotRun`. -/
def lateSlot : MockClients := mockClientsMachine.final fresh lateSlotRun

theorem lateSlotRun_runs : mockClientsMachine.Runs fresh lateSlotRun := ⟨rfl, rfl, trivial, rfl, trivial⟩

/-- The script has stored the empty text. -/
theorem lateSlot_stored : lateSlot.runs.map BookRun.stored = [some none] := by decide +kernel

/-- The slot is booked under the empty text. -/
theorem lateSlot_not_sound : ¬ lateSlot.Sound := by
  intro h
  obtain ⟨run, hmem, hstored⟩ := List.mem_map.mp (lateSlot_stored ▸ List.mem_cons_self)
  obtain ⟨slot, -, htext⟩ := (h run hmem).1 none hstored
  contradiction

/-- A call of `book_slot` can store the empty text and raise. -/
theorem booking_unsound : ¬ ∀ s, mockClientsMachine.Reach s → s.Sound := fun h =>
  lateSlot_not_sound (h lateSlot ((Machine.Reach.init fresh_init).final lateSlotRun_runs))

/-- In the run `lateSlotRun` a booking's script is not steady. -/
theorem bookings_sound_iff_late : ¬ mockClientsMachine.EachStep Steady fresh lateSlotRun := fun h =>
  lateSlot_not_sound ((bookings_sound_iff fresh_init lateSlotRun_runs).mpr h).final

end MockClients

end Dibs
