import Dibs.Service.OnRedis
import Dibs.Service.Terminal

/-!
# A watch shows what the provider answered

The service with a ghost log of what the provider has answered its deliveries, watch by watch. A watch has
nothing to show until it ends; a booked one shows one confirmation that the provider gave for it, and a found
one the first slots of one answer to a search for it (`Watch.Shows`). Every document that is stored or announced
shows no more than that (`AnsweredSys.documents_show_answers`).
-/

namespace Dibs

/-- What the provider has answered so far, by watch, newest first. -/
abbrev AnswerLog := List (String × Input)

/-- The watch for which a delivery awaits the provider. -/
def Task.asks : Task → Option String
  | .replaying c _ | .searching c _ | .booking c _ _ _ | .reconciling c _ _ _ => some c.watch.watchId
  | _ => none

/-- The answer that a step delivers. -/
def Sys.answer (s : Sys) : SysLabel → Option (String × Input)
  | .resume i input _ => (s.tasks i).asks.map (·, input)
  | _ => none

/-- The service, and what the provider has answered it. -/
structure AnsweredSys where
  sys : Sys
  answers : AnswerLog

/-- The machine of the service with valid data. -/
def answeredMachine (svc : WatchService) : Machine AnsweredSys SysLabel where
  init s := (sysMachine svc).init s.sys ∧ s.answers = []
  allowed s label := ((sysMachine svc).restrict (Sys.Sound svc)).allowed s.sys label
  exec label s := ⟨(sysMachine svc).exec label s.sys, (s.sys.answer label).toList ++ s.answers⟩

/-- The provider gave a confirmation for a watch: it replayed it, made it, or reconciled it. -/
def AnswerLog.Confirmed (answers : AnswerLog) (u : String) (confirmation : BookingConfirmation) : Prop :=
  ∃ input, (u, input) ∈ answers ∧ (input = .booking (some confirmation) ∨ input = .confirmed confirmation ∨
    input = .reconciled (.confirmed confirmation))

/-- The provider found slots for a watch. -/
def AnswerLog.Found (answers : AnswerLog) (u : String) (slots : List AvailabilitySlot) : Prop :=
  slots ≠ [] ∧ (u, .slots slots) ∈ answers

/-- A watch has nothing to show. -/
def Watch.Blank (w : Watch) : Prop := w.booking = none ∧ w.foundSlots = []

/-- What a watch shows of the provider's answers. -/
def Watch.Shows (w : Watch) (answers : AnswerLog) : Prop :=
  match w.status with
  | .booked => ∃ confirmation, answers.Confirmed w.watchId confirmation ∧ w.booking = some confirmation ∧
      w.foundSlots = [confirmation.slot]
  | .found => w.booking = none ∧ ∃ slots, answers.Found w.watchId slots ∧
      w.foundSlots = slots.take maxRecordedSlots
  | .active | .expired | .cancelled => w.Blank

section Log

variable {answers answers' : AnswerLog} {u : String}

theorem AnswerLog.Confirmed.mono (hsub : answers ⊆ answers') {confirmation : BookingConfirmation}
    (h : answers.Confirmed u confirmation) : answers'.Confirmed u confirmation := by
  obtain ⟨input, hmem, hinput⟩ := h
  exact ⟨input, hsub hmem, hinput⟩

theorem AnswerLog.Found.mono (hsub : answers ⊆ answers') {slots : List AvailabilitySlot}
    (h : answers.Found u slots) : answers'.Found u slots := ⟨h.1, hsub h.2⟩

theorem Watch.Shows.mono (hsub : answers ⊆ answers') {w : Watch} (h : w.Shows answers) :
    w.Shows answers' := by
  unfold Shows at h ⊢
  split at h
  · obtain ⟨confirmation, hgiven, hshown⟩ := h
    exact ⟨confirmation, hgiven.mono hsub, hshown⟩
  · obtain ⟨hnone, slots, hfound, hshown⟩ := h
    exact ⟨hnone, slots, hfound.mono hsub, hshown⟩
  all_goals exact h

/-- A watch whose end shows nothing. -/
theorem Watch.shows_of_blank {w : Watch} (h : w.Blank) (hbooked : w.status ≠ .booked)
    (hfound : w.status ≠ .found) : w.Shows answers := by
  unfold Shows
  split <;> first | contradiction | exact h

/-- An active watch has nothing to show. -/
theorem Watch.Shows.blank {w : Watch} (h : w.Shows answers) (hactive : w.status = .active) : w.Blank := by
  simpa [Shows, hactive] using h

end Log

/-! ## Plans -/

/-- What a verdict carries was answered for the watch. -/
def Verdict.Given (answers : AnswerLog) (u : String) : Verdict → Prop
  | .booked confirmation _ => answers.Confirmed u confirmation
  | .found slots => answers.Found u slots
  | .exhausted | .outage _ | .miss | .cancelled => True

/-- A document that changes neither what it shows nor, but for an expiry, its status. -/
structure Watch.Still (w w' : Watch) : Prop where
  booking : w'.booking = w.booking
  foundSlots : w'.foundSlots = w.foundSlots
  status : w'.status = w.status ∨ w'.status = .expired

theorem Watch.Still.shows {w w' : Watch} (h : w.Still w') (hactive : w.status = .active) (hblank : w.Blank)
    (answers : AnswerLog) : w'.Shows answers := by
  have hblank' : w'.Blank := ⟨h.booking.trans hblank.1, h.foundSlots.trans hblank.2⟩
  rcases h.status with hs | hs
  · exact shows_of_blank hblank' (by simp [hs, hactive]) (by simp [hs, hactive])
  · exact shows_of_blank hblank' (by simp [hs]) (by simp [hs])

theorem expiredWatch_still (w : Watch) (now : Time) (attempted : Bool) :
    w.Still (expiredWatch w now attempted) := by
  cases attempted <;> exact ⟨rfl, rfl, .inr rfl⟩

theorem commitMiss_still (svc : WatchService) (c : WindowClaim) (now : Time) (error : Option String)
    (offset : ℚ) : c.watch.Still (commitMiss svc c now error offset).watch := by
  unfold commitMiss
  dsimp only
  split_ifs
  · exact ⟨rfl, rfl, .inr rfl⟩
  · exact ⟨rfl, rfl, .inl rfl⟩

theorem commitOutage_still (svc : WatchService) (c : WindowClaim) (now : Time) (error : String) (offset : ℚ) :
    c.watch.Still (commitOutage svc c now error offset).watch := by
  unfold commitOutage
  dsimp only
  split
  · exact expiredWatch_still c.watch now false
  · exact ⟨rfl, rfl, .inl rfl⟩

/-- The plan of a verdict shows what the verdict carries. -/
theorem Verdict.plan_shows (svc : WatchService) {c : WindowClaim} (hactive : c.watch.status = .active)
    (hblank : c.watch.Blank) {answers : AnswerLog} {verdict : Verdict}
    (h : verdict.Given answers c.watch.watchId) (now : Time) (offset : ℚ) :
    (verdict.plan svc c now offset).watch.Shows answers := by
  cases verdict with
  | exhausted => exact (expiredWatch_still c.watch now false).shows hactive hblank _
  | outage error => exact (commitOutage_still ..).shows hactive hblank _
  | miss => exact (commitMiss_still ..).shows hactive hblank _
  | found slots => exact ⟨hblank.1, slots, h, rfl⟩
  | booked confirmation attempted => cases attempted <;> exact ⟨confirmation, h, rfl, rfl⟩
  | cancelled => exact Watch.shows_of_blank hblank (fun hs => by cases hs) (fun hs => by cases hs)

/-! ## Coroutines -/

/-- A claim on an active watch with nothing to show. -/
def WindowClaim.Blank (c : WindowClaim) : Prop := c.watch.status = .active ∧ c.watch.Blank

/-- What a coroutine holds shows no more than the provider answered. -/
def Task.Shows (answers : AnswerLog) : Task → Prop
  | .creating watch _ => watch.Shows answers
  | .owning c | .releasing c | .replaying c _ | .searching c _ | .permitting c _ _ | .booking c _ _ _
  | .checking c _ _ | .reconciling c _ _ _ => c.Blank
  | .committing c _ plan => c.Blank ∧ plan.watch.Shows answers
  | _ => True

theorem Task.Shows.mono {answers answers' : AnswerLog} (hsub : answers ⊆ answers') {task : Task}
    (h : task.Shows answers) : task.Shows answers' := by
  cases task with
  | creating => exact Watch.Shows.mono hsub h
  | committing => exact ⟨h.1, h.2.mono hsub⟩
  | _ => exact h

/-- What a call passes to the store shows no more than the provider answered. -/
def Op.Shows (answers : AnswerLog) : Op → Prop
  | .create watch _ => watch.Shows answers
  | .commit _ nw _ => nw.Shows answers
  | _ => True

theorem Task.Shows.op {answers : AnswerLog} {task : Task} (h : task.Shows answers) {input : Input} {op : Op}
    (hop : task.op input = some op) : op.Shows answers := by
  cases task with
  | creating =>
    obtain rfl := Option.some.inj hop
    exact h
  | committing =>
    obtain rfl := Option.some.inj hop
    exact h.2
  | cancelling | expiring | claiming | releasing =>
    obtain rfl := Option.some.inj hop
    trivial
  | permitting =>
    simp only [Task.op] at hop
    split_ifs at hop
    obtain rfl := Option.some.inj hop
    trivial
  | _ => contradiction

/-- The step lemma: what a delivery goes on with was there before, or is in the answer that it is given. -/
theorem Task.next_shows {svc : WatchService} {s : Store} {input : Input} {offset : ℚ} {reply : Option Reply}
    {task task' : Task} {answers : AnswerLog} (h : task.next svc s input offset reply = some task')
    (hs : task.Shows answers) (hanswer : ∀ u, task.asks = some u → (u, input) ∈ answers)
    (hclaim : ∀ c, reply = some (.claim (.owned c)) → c.Blank) : task'.Shows answers := by
  -- Every verdict is committed as the plan that the service builds for it.
  have hcommit : ∀ {c now verdict}, c.Blank → verdict.Given answers c.watch.watchId →
      (Task.commit svc offset c now verdict).Shows answers :=
    fun hc hv => ⟨hc, Verdict.plan_shows svc hc.1 hc.2 hv _ _⟩
  have hfailure : ∀ (failure : Failure) (u : String), failure.verdict.Given answers u := by
    intro failure u
    cases failure with
    | timeout => trivial
    | raised error => cases error <;> trivial
  cases Task.next_step h with
  | owned => exact hclaim _ rfl
  | exhausted => exact hcommit hs trivial
  | autoBook | monitor => exact hs
  | replayed => exact hcommit hs ⟨_, hanswer _ rfl, .inl rfl⟩
  | booked => exact hcommit hs ⟨_, hanswer _ rfl, .inr (.inl rfl)⟩
  | confirmed => exact hcommit hs ⟨_, hanswer _ rfl, .inr (.inr rfl)⟩
  | found => exact hcommit hs ⟨found_ne_nil h, hanswer _ rfl⟩
  | nothingFound | permitCancelled | cancelRequested | missed | absent | neverKnown => exact hcommit hs trivial
  | failed hawait =>
    rcases hawait with rfl | rfl | ⟨left, message, rfl⟩ <;> exact hcommit hs (hfailure _ _)
  | overdue hawait =>
    rcases hawait with ⟨slots, rfl⟩ | ⟨slot, rest, rfl⟩ | ⟨error, rfl⟩ <;> exact hcommit hs trivial
  | noReplay | tryBooking | granted | grantedNothing | nextSlot | noSlotLeft | ambiguous
  | definitivelyAbsent | stillUnknown | permitFenced => exact hs
  | _ => trivial

/-! ## Plain steps -/

instance : DecidablePred Input.Sound
  | .booking (some confirmation) | .confirmed confirmation | .reconciled (.confirmed confirmation) =>
    inferInstanceAs (Decidable (confirmation.Valid ∧ IsDatetime confirmation.createdAt))
  | .slots found => inferInstanceAs (Decidable (∀ slot ∈ found, slot.Valid))
  | .booking none | .proceed | .failed _ | .reconciled .definitivelyAbsent | .reconciled .unknown =>
    inferInstanceAs (Decidable True)

/-- Whether a step brings in no watch, and a valid answer if any. -/
def SysLabel.isPlain : SysLabel → Bool
  | .start _ (.creating _ _) => false
  | .resume _ input _ => decide input.Sound
  | _ => true

theorem SysLabel.sound_of_isPlain {svc : WatchService} {label : SysLabel} (h : label.isPlain = true) :
    label.Sound svc := by
  cases label with
  | start i task => cases task <;> first | contradiction | trivial
  | resume i input offset => exact of_decide_eq_true (p := input.Sound) h
  | _ => trivial

/-! ## Runs -/

/-- A call keeps what is stored from showing more than the provider answered. -/
theorem Store.shows_call {s : Store} {answers : AnswerLog} {op : Op} (hop : op.Shows answers)
    (h : ∀ u w, (s.row u).watch = some w → w.Shows answers) (u : String) (w : Watch)
    (hw : ((s.call op).row u).watch = some w) : w.Shows answers := by
  rcases s.row_call op u with ⟨-, he⟩ | ⟨hrow, -⟩ | ⟨-, hcleanup⟩
  · generalize s.reply op = reply at he
    generalize (s.call op).row u = row at he hw
    cases he with
    | create | reschedule | finish =>
      obtain rfl := Option.some.inj hw
      exact hop
    | cancel hwatch hactive =>
      obtain rfl := Option.some.inj hw
      exact Watch.shows_of_blank ((h u _ hwatch).blank hactive) (fun hs => by cases hs) (fun hs => by cases hs)
    | expire hwatch hactive =>
      obtain rfl := Option.some.inj hw
      exact Watch.shows_of_blank ((h u _ hwatch).blank hactive) (fun hs => by cases hs) (fun hs => by cases hs)
    | _ => exact h u w hw
  · exact h u w (hrow ▸ hw)
  · rcases hcleanup with he | ⟨-, he⟩ | ⟨-, he⟩ <;> rw [he] at hw
    · exact h u w hw
    · cases hw
    · exact h u w hw

namespace AnsweredSys

variable {svc : WatchService} {s : AnsweredSys}

/-- A notice tells the event of a valid document that shows no more than the provider answered. -/
structure Announces (answers : AnswerLog) (n : Notice) : Prop where
  event : eventFor n.watch.status = some n.event
  storable : n.watch.Storable
  shows : n.watch.Shows answers

theorem Announces.mono {answers answers' : AnswerLog} (hsub : answers ⊆ answers') {n : Notice}
    (h : Announces answers n) : Announces answers' n := ⟨h.event, h.storable, h.shows.mono hsub⟩

/-- The invariant: nothing that is stored, held or announced shows more than the provider answered. -/
structure Inv (svc : WatchService) (s : AnsweredSys) : Prop where
  sys : ((sysMachine svc).restrict (Sys.Sound svc)).Reach s.sys
  stored : ∀ u w, (s.sys.store.row u).watch = some w → w.Shows s.answers
  tasks : ∀ i, (s.sys.tasks i).Shows s.answers
  owed : ∀ i n, (s.sys.tasks i).owed = some n → Announces s.answers n
  sent : ∀ n ∈ s.sys.sent, Announces s.answers n

/-- What the coroutines hold after a step. -/
theorem Inv.tasks_exec (h : s.Inv svc) {label : SysLabel} (ha : (sysMachine svc).allowed s.sys label)
    (hsound : s.sys.Sound svc label) (j : ℕ) :
    (((sysMachine svc).exec label s.sys).tasks j).Shows ((s.sys.answer label).toList ++ s.answers) := by
  have hkept : (s.sys.tasks j).Shows ((s.sys.answer label).toList ++ s.answers) :=
    (h.tasks j).mono (List.subset_append_right _ _)
  cases label with
  | tick | maintain => exact hkept
  | start i task =>
    rcases eq_or_ne j i with rfl | hne
    · change (Function.update s.sys.tasks j task j).Shows _
      rw [Function.update_self]
      obtain ⟨-, hentry, -⟩ := ha
      cases task with
      | creating watch runtime =>
        -- What `create` has opened is blank.
        obtain ⟨⟨maxAttempts, zone, now, watchId, query, autoBook, hopened⟩, -⟩ := hsound.2.2
        obtain ⟨expiresAt, policy, -, hopened, -⟩ := WatchService.openWatch_ok hopened
        obtain ⟨rfl, rfl⟩ := Prod.mk.inj hopened
        exact ⟨rfl, rfl⟩
      | cancelling | expiring | resolving | claiming => trivial
      | _ => contradiction
    · change (Function.update s.sys.tasks i task j).Shows _
      rwa [Function.update_of_ne hne]
  | crash i =>
    rcases eq_or_ne j i with rfl | hne
    · change (Function.update s.sys.tasks j .idle j).Shows _
      rw [Function.update_self]
      trivial
    · change (Function.update s.sys.tasks i .idle j).Shows _
      rwa [Function.update_of_ne hne]
  | resume i input offset =>
    rcases eq_or_ne j i with rfl | hne
    · obtain ⟨-, ⟨task, hnext⟩, -⟩ := ha
      change (Function.update s.sys.tasks j ((s.sys.next svc j input offset).getD (s.sys.tasks j)) j).Shows _
      rw [Function.update_self, hnext, Option.getD_some]
      refine Task.next_shows hnext hkept (fun u hu => ?_) fun c hc => ?_
      · exact List.mem_append_left _ (by simp [Sys.answer, hu])
      · obtain ⟨op, -, hreply⟩ := Option.map_eq_some_iff.mp hc
        obtain ⟨-, -, -, hwatch, -, hactive, -⟩ := Store.owned_cases hreply
        exact ⟨hactive, (h.stored _ _ hwatch).blank hactive⟩
    · change (Function.update s.sys.tasks i _ j).Shows _
      rwa [Function.update_of_ne hne]

/-- What is stored after a step. -/
theorem Inv.stored_exec (h : s.Inv svc) {label : SysLabel} (ha : (sysMachine svc).allowed s.sys label)
    (u : String) (w : Watch) (hw : (((sysMachine svc).exec label s.sys).store.row u).watch = some w) :
    w.Shows s.answers := by
  rcases Sys.exec_store svc s.sys label with he | ⟨now, -, he⟩ <;> rw [he] at hw
  · cases hop : s.sys.op label with
    | none =>
      rw [hop] at hw
      exact h.stored u w hw
    | some op =>
      rw [hop] at hw
      refine Store.shows_call ?_ h.stored u w hw
      cases label with
      | tick | start | crash => contradiction
      | maintain op' =>
        obtain rfl : op' = op := Option.some.inj hop
        have hm : op'.Maintenance := ha
        cases op' with
        | create | commit => contradiction
        | _ => trivial
      | resume i input offset => exact (h.tasks i).op hop
  · exact h.stored u w hw

/-- Every step keeps the invariant. -/
theorem Inv.exec (h : s.Inv svc) {label : SysLabel} (ha : (answeredMachine svc).allowed s label) :
    ((answeredMachine svc).exec label s).Inv svc := by
  have hr := h.sys.of_restrict
  have hreach := h.sys.step (M := (sysMachine svc).restrict (Sys.Sound svc)) label ha
  have hsub : s.answers ⊆ (s.sys.answer label).toList ++ s.answers := List.subset_append_right _ _
  have hstored := h.stored_exec ha.1
  have howed : ∀ i n, (((sysMachine svc).exec label s.sys).tasks i).owed = some n →
      Announces ((s.sys.answer label).toList ++ s.answers) n := by
    intro i n hn
    rcases Sys.owed_or_issues hr ha.1 hn with hold | ⟨-, hevent, hissues⟩
    · exact (h.owed i n hold).mono hsub
    · -- The step that issues the event stores the document.
      have hdocument := (hissues.spec svc).2.1
      exact ⟨hevent, (((Sys.storable hreach).stored _).watch _ hdocument).2, (hstored _ _ hdocument).mono hsub⟩
  refine ⟨hreach, fun u w hw => (hstored u w hw).mono hsub, h.tasks_exec ha.1 ha.2, howed, fun n hn => ?_⟩
  rcases Sys.sent_exec ha.1 with hsent | ⟨j, m, hm, hsent, -⟩
  · exact (h.sent n (hsent ▸ hn)).mono hsub
  · rcases List.mem_cons.mp (hsent ▸ hn) with rfl | hold
    · exact (h.owed j n hm).mono hsub
    · exact (h.sent n hold).mono hsub

/-- The invariant holds in every run. -/
theorem inv (h : (answeredMachine svc).Reach s) : s.Inv svc := by
  refine h.invariant (P := Inv svc) ?_ fun s label _ hs ha => hs.exec ha
  rintro s ⟨hinit, hanswers⟩
  obtain ⟨⟨retention, hmem, -⟩, htasks, hsent, -⟩ := id hinit
  refine ⟨.init hinit, fun u w hw => ?_, fun i => ?_, fun i n hn => ?_, fun n hn => ?_⟩
  · simp [Store.row, hmem, Memory.row_empty, Row.vacant] at hw
  · rw [htasks i]
    trivial
  · rw [htasks i] at hn
    contradiction
  · rw [hsent] at hn
    contradiction

/-- In every run of the service, whatever the provider answers and however deliveries, cancellations and crashes
interleave, every stored document and every document that is announced shows what the provider answered for
its own watch: a booked watch has one confirmation that the provider gave for it, and its one slot; a found one
has the first slots of one search that found some, and no booking; and any other watch has neither. -/
theorem documents_show_answers (h : (answeredMachine svc).Reach s) :
    (∀ u w, (s.sys.store.row u).watch = some w → w.watchId = u ∧ w.Shows s.answers) ∧
      ∀ n ∈ s.sys.sent, eventFor n.watch.status = some n.event ∧ n.watch.Shows s.answers := by
  have hinv := inv h
  refine ⟨fun u w hw => ⟨?_, hinv.stored u w hw⟩, fun n hn => ?_⟩
  · exact (((Sys.storable hinv.sys).stored u).watch w hw).1
  · exact ⟨(hinv.sent n hn).event, (hinv.sent n hn).shows⟩

/-! ### A run -/

/-- The service before anything happens. -/
def fresh : AnsweredSys := ⟨.fresh, []⟩

/-- The step that begins to create a watch. -/
def creation : SysLabel := .start 0 (.creating RedisService.opened.1 RedisService.opened.2)

/-- The creation goes on, and a delivery books a slot. -/
def bookingRun (slot : AvailabilitySlot) (confirmation : BookingConfirmation) : List SysLabel :=
  [.resume 0 .proceed 0, .resume 0 .proceed 0, .resume 0 .proceed 0, .tick 60000000,
    .start 1 (.claiming "watch_1" "watch_1:0" "a" true), .resume 1 .proceed 0, .resume 1 .proceed 0,
    .resume 1 (.booking none) 0, .resume 1 (.slots [slot]) 0, .resume 1 .proceed 0,
    .resume 1 (.confirmed confirmation) 0, .resume 1 .proceed 0, .resume 1 .proceed 0, .resume 1 .proceed 0]

/-- The run with a sample slot. -/
def sampleRun : List SysLabel :=
  creation :: bookingRun (.sample "s") ⟨"booking_1", "resy", .confirmed, .sample "s", 60000000⟩

/-- Steps that bring in no watch, and nothing that is not valid. -/
theorem runs_of_plain {labels : List SysLabel}
    (h : (answeredMachine svc).EachStep (fun s label =>
      (sysMachine svc).allowed s.sys label ∧ IsDatetime s.sys.store.now ∧
        IsDatetime (s.sys.store.now + s.sys.store.mem.retention) ∧ label.isPlain = true) s labels) :
    (answeredMachine svc).Runs s labels := by
  induction labels generalizing s with
  | nil => trivial
  | cons label labels ih =>
    obtain ⟨⟨hallowed, hnow, hdeadline, hplain⟩, hrest⟩ := h
    exact ⟨⟨hallowed, hnow, hdeadline, SysLabel.sound_of_isPlain hplain⟩, ih hrest⟩

theorem sampleRun_runs : (answeredMachine .sample).Runs fresh sampleRun :=
  ⟨⟨by decide +kernel, by decide, by decide, RedisService.opens_opened⟩, runs_of_plain (by decide +kernel)⟩

/-- The service once it has announced the booking. -/
def booked : AnsweredSys := (answeredMachine .sample).final fresh sampleRun

theorem booked_reach : (answeredMachine .sample).Reach booked :=
  (Machine.Reach.init (M := answeredMachine .sample) ⟨Sys.fresh_init, rfl⟩).final sampleRun_runs

example : booked.sys.sent.map Notice.event = [.booked] := by decide +kernel

theorem documents_show_answers_booked :
    (∀ u w, (booked.sys.store.row u).watch = some w → w.watchId = u ∧ w.Shows booked.answers) ∧
      ∀ n ∈ booked.sys.sent, eventFor n.watch.status = some n.event ∧ n.watch.Shows booked.answers :=
  documents_show_answers booked_reach

end AnsweredSys

end Dibs
