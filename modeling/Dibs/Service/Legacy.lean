import Dibs.Service.System

/-!
# The legacy path

`WatchService._legacy_poll_once` in `backend/services/watch_service.py`, which `poll_once` takes for a
record without a window, one await at a time, with `cancel` and `expire` beside it: any number of
coroutines over one record of the in-memory store that has no sidecar.

Every save of the path writes the whole document back without looking at what is stored by then. The
stored status is final exactly as long as no save meets a finished record of another status, and when
every save meets an active record, at most one notification is sent (`legacy_respects_terminal`).
-/

namespace Dibs

open Function (update)

/-- `save` of the in-memory store. -/
def Memory.save (m : Memory) (watch : Watch) : Memory :=
  { m with watches := m.watches.insert watch.watchId watch }

/-- What is left to do after a save. -/
inductive AfterSave
  /-- `enqueue_watch_poll` with this delay. -/
  | queue (delaySeconds : ℚ)
  | announce (event : WatchEvent)
deriving DecidableEq

/-- A coroutine of the legacy path, a cancellation or an expiry at an await. -/
inductive LegacyTask
  /-- There is no coroutine. -/
  | idle
  /-- `cancel`, before `cancel_if_active`. -/
  | cancelling
  /-- `expire`, before `expire_if_eligible`. -/
  | expiring
  /-- `poll_once`, before `get_runtime`. -/
  | resolving
  /-- `poll_once`, before `get`. -/
  | fetching
  /-- `_legacy_replayed_booking`, before `get_booking`. -/
  | replaying (watch : Watch) (now : Time)
  /-- `_search`, before `search_availability`. -/
  | searching (watch : Watch) (now : Time)
  /-- `_book`, before `book_slot` on the first of the slots left. -/
  | booking (watch : Watch) (now : Time) (slot : AvailabilitySlot) (rest : List AvailabilitySlot)
  /-- Before `save`. -/
  | saving (watch : Watch) (after : AfterSave) (result : PollResult)
  /-- `_legacy_reschedule`, before `enqueue_watch_poll`. -/
  | queueing (watch : Watch) (delaySeconds : ℚ) (result : PollResult)
  /-- Before the history record. -/
  | recording (watch : Watch) (revision : ℤ) (event : Option WatchEvent) (result : Returned)
  /-- Before the notification. -/
  | announcing (watch : Watch) (event : WatchEvent) (result : Returned)
  /-- `poll_window`: the record has a window. -/
  | windowed (windowId : String)
  /-- The coroutine has returned. -/
  | finished (result : Returned)
deriving DecidableEq

section Next

variable (svc : WatchService) (offset : ℚ)

/-- `_legacy_expire`, up to its save. -/
def legacyExpire (watch : Watch) (now : Time) : LegacyTask :=
  let expired := { watch with status := .expired, nextCheckAt := none, updatedAt := now }
  .saving expired (.announce .expired) ⟨.expired, some expired, none⟩

/-- `_legacy_reschedule`, up to its save. -/
def legacyReschedule (watch : Watch) (now : Time) : LegacyTask :=
  let remainingSeconds := totalSeconds (watch.expiresAt - now)
  if remainingSeconds ≤ 0 then legacyExpire watch now
  else
    let delay := min (svc.schedule.nextDelay offset) remainingSeconds
    let pending := { watch with nextCheckAt := some (now + timedelta delay), updatedAt := now }
    .saving pending (.queue delay) ⟨.noAvailability, some pending, some delay⟩

/-- `_legacy_retry_auto_book`. -/
def legacyRetryAutoBook (watch : Watch) (now : Time) (error : String) : LegacyTask :=
  let retrying := { watch with lastError := some error }
  if retrying.isExhausted now then legacyExpire retrying now
  else legacyReschedule svc offset retrying now

/-- The save of a booking, in `_legacy_fulfill` and `_legacy_replayed_booking`. -/
def legacyBooked (watch : Watch) (now : Time) (confirmation : BookingConfirmation) : LegacyTask :=
  let booked := { watch with
    status := .booked
    foundSlots := [confirmation.slot]
    booking := some confirmation
    nextCheckAt := none
    updatedAt := now }
  .saving booked (.announce .booked) ⟨.booked, some booked, none⟩

/-- The save of found slots in `_legacy_fulfill`. -/
def legacyFound (watch : Watch) (now : Time) (slots : List AvailabilitySlot) : LegacyTask :=
  let found := { watch with
    status := .found
    foundSlots := slots.take maxRecordedSlots
    nextCheckAt := none
    updatedAt := now }
  .saving found (.announce .availabilityFound) ⟨.found, some found, none⟩

/-- The watch after a search. -/
def legacyAttempted (watch : Watch) (now : Time) (error : Option String) : Watch :=
  { watch with
    attempts := min (watch.attempts + 1) watch.maxAttempts
    lastCheckedAt := some now
    updatedAt := now
    lastError := error }

/-- `_legacy_poll_once` after it has read the clock. -/
def legacyStart (watch : Watch) (now : Time) : LegacyTask :=
  if watch.isExhausted now then legacyExpire watch now
  else if watch.autoBook then .replaying watch now
  else .searching watch now

/-- `_legacy_poll_once` after `_search`, with the slots that it returned. -/
def legacySearched (watch : Watch) (now : Time) (slots : List AvailabilitySlot)
    (error : Option String) : LegacyTask :=
  let attempted := legacyAttempted watch now error
  match slots with
  | slot :: rest =>
    if attempted.autoBook then .booking attempted now slot rest
    else legacyFound attempted now (slot :: rest)
  | [] =>
    if attempted.isExhausted now then legacyExpire attempted now
    else legacyReschedule svc offset attempted now

/-- `_legacy_fulfill` after one `book_slot`; an error that is no slot race is reported. -/
def legacyBookedOne (watch : Watch) (now : Time) (rest : List AvailabilitySlot) :
    Input → Option LegacyTask
  | .confirmed confirmation => some (legacyBooked watch now confirmation)
  | .failed (.raised (.other message)) =>
    some (legacyRetryAutoBook svc offset watch now (errorText message))
  | .failed (.raised _) =>
    match rest with
    | slot :: rest => some (.booking watch now slot rest)
    | [] => some (legacyRetryAutoBook svc offset watch now
        "Available slots disappeared before they could be booked")
  | _ => none

end Next

/-- The notification that a coroutine sends in its next step. -/
def LegacyTask.notice : LegacyTask → Option Notice
  | .announcing watch event _ => some ⟨watch, event⟩
  | _ => none

/-- The document that a coroutine saves in its next step. -/
def LegacyTask.saves : LegacyTask → Option Watch
  | .saving watch _ _ => some watch
  | _ => none

/-- What a coroutine does up to its next await, with the store it leaves; none when the input is not one
that it can get there. -/
def LegacyTask.next (svc : WatchService) (u : String) (now : Time) (m : Memory) (input : Input)
    (offset : ℚ) : LegacyTask → Option (LegacyTask × Memory)
  | .idle | .windowed _ | .finished _ => none
  | .cancelling =>
    let out := m.cancelIfActive now u
    some (match out.1 with
      | .applied watch _ revision => .recording watch revision none (.watch (some watch))
      | .noop watch | .notEligible watch => .finished (.watch (some watch))
      | .unknown | .fenced => .finished (.watch none), out.2)
  | .expiring =>
    let out := m.expireIfEligible now u none false
    some (match out.1 with
      | .applied watch eventId revision =>
        .recording watch revision (eventId.map fun _ => .expired) (.transition out.1)
      | result => .finished (.transition result), out.2)
  | .resolving =>
    match (m.runtimes.get? u).bind WatchRuntime.windowId with
    | some windowId => some (.windowed windowId, m)
    | none => some (.fetching, m)
  | .fetching =>
    match m.watches.get? u with
    | none => some (.finished (.poll (noop none)), m)
    | some watch =>
      if watch.status.isTerminal then some (.finished (.poll (noop (some watch))), m)
      else some (legacyStart watch now, m)
  | .replaying watch started =>
    match input with
    | .booking (some existing) => some (legacyBooked watch started existing, m)
    | .booking none => some (.searching watch started, m)
    | _ => none
  | .searching watch started =>
    match input with
    | .slots slots => some (legacySearched svc offset watch started slots none, m)
    | .failed (.raised error) =>
      some (legacySearched svc offset watch started [] (some (errorText error.message)), m)
    | _ => none
  | .booking watch started _ rest =>
    (legacyBookedOne svc offset watch started rest input).map fun task => (task, m)
  | .saving watch after result =>
    some (match after with
      | .queue delay => .queueing watch delay result
      | .announce event => .recording watch (-1) (some event) (.poll result), m.save watch)
  | .queueing watch _ result => some (.recording watch (-1) none (.poll result), m)
  | .recording watch _ event result =>
    match event with
    | some event => some (.announcing watch event result, m)
    | none => some (.finished result, m)
  | .announcing _ _ result => some (.finished result, m)

/-- The coroutine has finished the record and has not announced it yet. -/
def LegacyTask.owes : LegacyTask → Bool
  | .recording _ _ event _ => event.isSome
  | .announcing _ _ _ => true
  | _ => false

/-- A coroutine works on an active document of the record, and its saves are announced when they finish
the record. -/
def LegacyTask.Wf (u : String) : LegacyTask → Prop
  | .replaying watch _ | .searching watch _ | .booking watch _ _ _ =>
    watch.watchId = u ∧ watch.status = .active
  | .saving watch (.queue _) _ => watch.watchId = u ∧ watch.status = .active
  | .saving watch (.announce _) _ => watch.watchId = u ∧ watch.status ≠ .active
  | _ => True

/-- How a coroutine may start. -/
def LegacyTask.Entry : LegacyTask → Prop
  | .cancelling | .expiring | .resolving => True
  | _ => False

instance : DecidablePred LegacyTask.Entry := fun task => by
  unfold LegacyTask.Entry
  split <;> infer_instance

/-- The store and the coroutines, the notifications that were sent, newest first, and the first terminal
status that was stored. -/
structure LegacySys where
  now : Time
  mem : Memory
  tasks : ℕ → LegacyTask
  sent : List Notice
  ended : Option WatchStatus

/-- A step: the clock moves, or a coroutine starts, goes on to its next await, or ends where it
stands. -/
inductive LegacyLabel
  | tick (now : Time)
  | start (i : ℕ) (task : LegacyTask)
  | resume (i : ℕ) (input : Input) (offset : ℚ)
  | crash (i : ℕ)

namespace LegacySys

/-- The stored status of the record. -/
def status (s : LegacySys) (u : String) : Option WatchStatus := (s.mem.watches.get? u).map Watch.status

/-- The state after a coroutine got to its next await. -/
def moved (s : LegacySys) (u : String) (i : ℕ) (task : LegacyTask) (m : Memory) : LegacySys where
  now := s.now
  mem := m
  tasks := update s.tasks i task
  sent := (s.tasks i).notice.toList ++ s.sent
  ended := s.ended <|> ((m.watches.get? u).map Watch.status).filter WatchStatus.isTerminal

end LegacySys

/-- The machine of the coroutines over one active record without a sidecar. -/
def legacyMachine (svc : WatchService) (u : String) : Machine LegacySys LegacyLabel where
  init s := (∃ watch, s.mem.watches.get? u = some watch ∧ watch.watchId = u ∧ watch.status = .active) ∧
    s.mem.runtimes.get? u = none ∧ (∀ i, s.tasks i = .idle) ∧ s.sent = [] ∧ s.ended = none
  allowed s
    | .tick now => s.now ≤ now
    | .start i task => s.tasks i = .idle ∧ task.Entry
    | .resume i input offset => svc.schedule.Draws offset ∧
        ((s.tasks i).next svc u s.now s.mem input offset).isSome = true
    | .crash _ => True
  exec
    | .tick now, s => { s with now := now }
    | .start i task, s => { s with tasks := update s.tasks i task }
    | .resume i input offset, s =>
      match (s.tasks i).next svc u s.now s.mem input offset with
      | some (task, m) => s.moved u i task m
      | none => s
    | .crash i, s => { s with tasks := update s.tasks i .idle }

namespace LegacySys

variable {svc : WatchService} {u : String}

/-- Once a terminal status was stored it is the stored one. -/
def StatusFinal (u : String) (s : LegacySys) : Prop := ∀ status ∈ s.ended, s.status u = some status

/-- The record is finished at most once: its terminal status is final, and at most one notification was
sent. -/
def Respected (u : String) (s : LegacySys) : Prop := StatusFinal u s ∧ s.sent.length ≤ 1

/-- The document that a step saves. -/
def saves (s : LegacySys) : LegacyLabel → Option Watch
  | .resume i _ _ => (s.tasks i).saves
  | .tick _ | .start _ _ | .crash _ => none

/-- A save meets an active record, or a finished one of the status that it writes. -/
def Agrees (u : String) (s : LegacySys) (label : LegacyLabel) : Prop :=
  ∀ watch ∈ s.saves label, ∀ status ∈ s.status u, status.isTerminal = true → watch.status = status

/-- A save meets an active record. -/
def Timely (u : String) (s : LegacySys) (label : LegacyLabel) : Prop :=
  ∀ watch ∈ s.saves label, s.status u = some .active

instance (u : String) (s : LegacySys) : DecidablePred (Timely u s) := fun label =>
  inferInstanceAs (Decidable (∀ watch ∈ s.saves label, s.status u = some .active))

end LegacySys

/-! ## What one step does -/

section Pending

variable {svc : WatchService} {offset : ℚ} {u : String} {watch : Watch} {now : Time}

/-- A delivery that has not saved anything. -/
def LegacyTask.Pending (u : String) (task : LegacyTask) : Prop := task.Wf u ∧ task.owes = false

theorem legacyExpire_pending (h : watch.watchId = u) : (legacyExpire watch now).Pending u :=
  ⟨⟨h, by simp⟩, rfl⟩

theorem legacyReschedule_pending (h : watch.watchId = u ∧ watch.status = .active) :
    (legacyReschedule svc offset watch now).Pending u := by
  unfold legacyReschedule
  dsimp only
  split_ifs
  · exact legacyExpire_pending h.1
  · exact ⟨h, rfl⟩

theorem legacyRetryAutoBook_pending (h : watch.watchId = u ∧ watch.status = .active) (error : String) :
    (legacyRetryAutoBook svc offset watch now error).Pending u := by
  unfold legacyRetryAutoBook
  dsimp only
  split_ifs
  · exact legacyExpire_pending h.1
  · exact legacyReschedule_pending h

theorem legacyBooked_pending (h : watch.watchId = u) (confirmation : BookingConfirmation) :
    (legacyBooked watch now confirmation).Pending u := ⟨⟨h, by simp⟩, rfl⟩

theorem legacyStart_pending (h : watch.watchId = u ∧ watch.status = .active) :
    (legacyStart watch now).Pending u := by
  unfold legacyStart
  split_ifs
  · exact legacyExpire_pending h.1
  · exact ⟨h, rfl⟩
  · exact ⟨h, rfl⟩

theorem legacySearched_pending (h : watch.watchId = u ∧ watch.status = .active)
    (slots : List AvailabilitySlot) (error : Option String) :
    (legacySearched svc offset watch now slots error).Pending u := by
  unfold legacySearched
  dsimp only
  split
  · split_ifs
    · exact ⟨h, rfl⟩
    · exact ⟨⟨h.1, by simp⟩, rfl⟩
  · split_ifs
    · exact legacyExpire_pending h.1
    · exact legacyReschedule_pending h

theorem legacyBookedOne_pending (h : watch.watchId = u ∧ watch.status = .active)
    {rest : List AvailabilitySlot} {input : Input} {task : LegacyTask}
    (hnext : legacyBookedOne svc offset watch now rest input = some task) : task.Pending u := by
  unfold legacyBookedOne at hnext
  split at hnext
  · obtain rfl := Option.some.inj hnext
    exact legacyBooked_pending h.1 _
  · obtain rfl := Option.some.inj hnext
    exact legacyRetryAutoBook_pending h _
  · split at hnext
    · obtain rfl := Option.some.inj hnext
      exact ⟨h, rfl⟩
    · obtain rfl := Option.some.inj hnext
      exact legacyRetryAutoBook_pending h _
  · contradiction

end Pending

/-- What a step of a coroutine does to the record. -/
inductive LegacyTask.Effect (u : String) (m : Memory) (task : LegacyTask) (task' : LegacyTask) (m' : Memory) :
    Prop
  /-- Nothing that is stored changes. What is owed was owed before, and not any more once it is sent. -/
  | kept (hmem : m' = m) (howes : task'.owes = true → task.owes = true)
      (hnotice : task.notice ≠ none → task.owes = true ∧ task'.owes = false)
  /-- A cancellation or an expiry finishes an active record. -/
  | ended (watch' : Watch) (hactive : (m.watches.get? u).map Watch.status = some .active)
      (hwatch : m'.watches.get? u = some watch') (hid : watch'.watchId = u)
      (hterminal : watch'.status ≠ .active) (hruntime : m'.runtimes.get? u = none)
      (hnotice : task.notice = none)
  /-- A delivery saves its document, whatever is stored. -/
  | saved (watch : Watch) (after : AfterSave) (result : PollResult)
      (htask : task = .saving watch after result) (hmem : m' = m.save watch)
      (howes : task'.owes = true → watch.status ≠ .active)

/-- A record without a sidecar that is finished by an operation of the store. -/
theorem row_finished {m m' : Memory} {u : String} {watch : Watch} {status : WatchStatus} {now at_ : Time}
    (hruntime : m.runtimes.get? u = none)
    (hrow : m'.row = update m.row u ((m.row u).finish (watch.ended status now)
      ((m.row u).runtime.map (·.finished at_)) at_)) :
    m'.watches.get? u = some (watch.ended status now) ∧ m'.runtimes.get? u = none := by
  have hu : m'.row u = (m.row u).finish (watch.ended status now)
      ((m.row u).runtime.map (·.finished at_)) at_ := by
    rw [hrow, Function.update_self]
  have hnone : (m.row u).runtime = none := hruntime
  constructor
  · exact congrArg Row.watch hu
  · have := congrArg Row.runtime hu
    rw [hnone] at this
    exact this

/-- Each step has one of the three effects. -/
theorem LegacyTask.next_effect {svc : WatchService} {u : String} {now : Time} {m m' : Memory}
    {input : Input} {offset : ℚ} {task task' : LegacyTask} {stored : Watch}
    (hstored : m.watches.get? u = some stored) (hid : stored.watchId = u)
    (hruntime : m.runtimes.get? u = none) (hwf : task.Wf u)
    (h : task.next svc u now m input offset = some (task', m')) :
    task.Effect u m task' m' ∧ task'.Wf u := by
  have hpending : m' = m → task'.Pending u → task.notice = none → task.Effect u m task' m' ∧ task'.Wf u :=
    fun hm hp hn => ⟨.kept hm (by simp [hp.2]) (by simp [hn]), hp.1⟩
  cases task with
  | idle => contradiction
  | windowed => contradiction
  | finished => contradiction
  | cancelling =>
    simp only [next, Option.some.injEq, Prod.mk.injEq] at h
    obtain ⟨htask, rfl⟩ := h
    rcases m.cancelIfActive_cases now u with ⟨_, runtime, -, hrt, -⟩ | ⟨watch, hw, hactive, -, hout, hrow⟩ |
      ⟨-, hout⟩ | ⟨watch, -, -, hout⟩
    · exact absurd (hruntime.symm.trans hrt) (by simp)
    · obtain rfl := Option.some.inj (hstored.symm.trans hw)
      obtain ⟨hwatch, hrt⟩ := row_finished hruntime hrow
      rw [hout] at htask
      subst htask
      exact ⟨.ended _ (by simp [hstored, hactive]) hwatch hid (by simp [Watch.ended]) hrt rfl, trivial⟩
    · rw [hout] at htask ⊢
      subst htask
      exact ⟨.kept rfl (by simp [owes]) (by simp [notice]), trivial⟩
    · rw [hout] at htask ⊢
      subst htask
      exact ⟨.kept rfl (by simp [owes]) (by simp [notice]), trivial⟩
  | expiring =>
    simp only [next, Option.some.injEq, Prod.mk.injEq] at h
    obtain ⟨htask, rfl⟩ := h
    rcases m.expireIfEligible_cases now u none false with ⟨watch, hw, hactive, -, hout, hrow⟩ |
      ⟨happlied, hsame⟩
    · obtain rfl := Option.some.inj (hstored.symm.trans hw)
      obtain ⟨hwatch, hrt⟩ := row_finished hruntime hrow
      rw [hout] at htask
      subst htask
      exact ⟨.ended _ (by simp [hstored, hactive]) hwatch hid (by simp [Watch.ended]) hrt rfl, trivial⟩
    · rw [hsame]
      generalize (m.expireIfEligible now u none false).1 = result at htask happlied
      cases result with
      | applied => contradiction
      | _ =>
        subst htask
        exact ⟨.kept rfl (by simp [owes]) (by simp [notice]), trivial⟩
  | resolving =>
    simp only [next, hruntime, Option.bind_none, Option.some.injEq, Prod.mk.injEq] at h
    obtain ⟨rfl, rfl⟩ := h
    exact ⟨.kept rfl (by simp [owes]) (by simp [notice]), trivial⟩
  | fetching =>
    simp only [next, hstored] at h
    split at h
    next hterminal =>
      obtain ⟨rfl, rfl⟩ := Prod.mk.inj (Option.some.inj h)
      exact ⟨.kept rfl (by simp [owes]) (by simp [notice]), trivial⟩
    next hactive =>
      obtain ⟨rfl, rfl⟩ := Prod.mk.inj (Option.some.inj h)
      exact hpending rfl (legacyStart_pending ⟨hid, by simpa using hactive⟩) rfl
  | replaying watch started =>
    simp only [next] at h
    split at h
    · obtain ⟨rfl, rfl⟩ := Prod.mk.inj (Option.some.inj h)
      exact hpending rfl (legacyBooked_pending hwf.1 _) rfl
    · obtain ⟨rfl, rfl⟩ := Prod.mk.inj (Option.some.inj h)
      exact hpending rfl ⟨hwf, rfl⟩ rfl
    · contradiction
  | searching watch started =>
    simp only [next] at h
    split at h
    · obtain ⟨rfl, rfl⟩ := Prod.mk.inj (Option.some.inj h)
      exact hpending rfl (legacySearched_pending hwf _ _) rfl
    · obtain ⟨rfl, rfl⟩ := Prod.mk.inj (Option.some.inj h)
      exact hpending rfl (legacySearched_pending hwf _ _) rfl
    · contradiction
  | booking watch started slot rest =>
    simp only [next, Option.map_eq_some_iff] at h
    obtain ⟨task, hnext, heq⟩ := h
    obtain ⟨rfl, rfl⟩ := Prod.mk.inj heq
    exact hpending rfl (legacyBookedOne_pending hwf hnext) rfl
  | saving watch after result =>
    simp only [next, Option.some.injEq, Prod.mk.injEq] at h
    obtain ⟨rfl, rfl⟩ := h
    cases after with
    | queue delay => exact ⟨.saved watch _ result rfl rfl (by simp [owes]), trivial⟩
    | announce event => exact ⟨.saved watch _ result rfl rfl fun _ => hwf.2, trivial⟩
  | queueing watch delay result =>
    obtain ⟨rfl, rfl⟩ := Prod.mk.inj (Option.some.inj h)
    exact ⟨.kept rfl (by simp [owes]) (by simp [notice]), trivial⟩
  | recording watch revision event result =>
    cases event with
    | none =>
      obtain ⟨rfl, rfl⟩ := Prod.mk.inj (Option.some.inj h)
      exact ⟨.kept rfl (by simp [owes]) (by simp [notice]), trivial⟩
    | some event =>
      obtain ⟨rfl, rfl⟩ := Prod.mk.inj (Option.some.inj h)
      exact ⟨.kept rfl (by simp [owes]) (by simp [notice]), trivial⟩
  | announcing watch event result =>
    obtain ⟨rfl, rfl⟩ := Prod.mk.inj (Option.some.inj h)
    exact ⟨.kept rfl (by simp [owes]) (by simp [owes]), trivial⟩

namespace LegacySys

variable {svc : WatchService} {u : String}

/-! ## The stored status -/

/-- The record is stored under its id without a sidecar, and is active until a terminal status was
stored. -/
structure Kept (u : String) (s : LegacySys) : Prop where
  stored : ∃ watch, s.mem.watches.get? u = some watch ∧ watch.watchId = u
  runtime : s.mem.runtimes.get? u = none
  wf : ∀ i, (s.tasks i).Wf u
  active : s.ended = none → s.status u = some .active
  terminal : ∀ status ∈ s.ended, status ≠ .active

/-- What a coroutine does to the record when it gets to its next await. -/
theorem Kept.effect {s : LegacySys} (h : s.Kept u) {i : ℕ} {input : Input} {offset : ℚ}
    {task : LegacyTask} {m : Memory}
    (hnext : (s.tasks i).next svc u s.now s.mem input offset = some (task, m)) :
    (s.tasks i).Effect u s.mem task m ∧ task.Wf u := by
  obtain ⟨watch, hstored, hid⟩ := h.stored
  exact LegacyTask.next_effect hstored hid h.runtime (h.wf i) hnext

/-- A save replaces the document of the record. -/
theorem Kept.saved {s : LegacySys} (h : s.Kept u) {i : ℕ} {watch : Watch} {after : AfterSave}
    {result : PollResult} (htask : s.tasks i = .saving watch after result) :
    (s.mem.save watch).watches.get? u = some watch ∧ watch.watchId = u := by
  have hid : watch.watchId = u := by
    have hwf := h.wf i
    rw [htask] at hwf
    cases after with
    | queue => exact hwf.1
    | announce => exact hwf.1
  refine ⟨?_, hid⟩
  rw [Memory.save, hid, Dict.get?_insert_self]

/-- Every step keeps the record in its place. -/
theorem Kept.moved {s : LegacySys} (h : s.Kept u) {i : ℕ} {input : Input} {offset : ℚ}
    {task : LegacyTask} {m : Memory}
    (hnext : (s.tasks i).next svc u s.now s.mem input offset = some (task, m)) :
    (s.moved u i task m).Kept u := by
  obtain ⟨heffect, hwf⟩ := h.effect hnext
  have hplace : (∃ watch, m.watches.get? u = some watch ∧ watch.watchId = u) ∧
      m.runtimes.get? u = none := by
    cases heffect with
    | kept hmem => exact hmem ▸ ⟨h.stored, h.runtime⟩
    | ended watch' hactive hwatch hid hterminal hruntime => exact ⟨⟨watch', hwatch, hid⟩, hruntime⟩
    | saved watch after result htask hmem =>
      subst hmem
      exact ⟨⟨watch, (h.saved htask)⟩, h.runtime⟩
  obtain ⟨⟨watch, hwatch, hid⟩, hruntime⟩ := hplace
  have hstatus : (s.moved u i task m).status u = some watch.status := by
    show (m.watches.get? u).map Watch.status = _
    rw [hwatch]
    rfl
  have hended : (s.moved u i task m).ended =
      (s.ended <|> (some watch.status).filter WatchStatus.isTerminal) := by
    show (s.ended <|> ((m.watches.get? u).map Watch.status).filter WatchStatus.isTerminal) = _
    rw [hwatch]
    rfl
  refine ⟨⟨watch, hwatch, hid⟩, hruntime, ?_, ?_, ?_⟩
  · intro j
    show (update s.tasks i task j).Wf u
    rw [Function.update_apply]
    split_ifs
    · exact hwf
    · exact h.wf j
  · intro hnone
    rw [hended] at hnone
    have hopen : (some watch.status).filter WatchStatus.isTerminal = none := by
      cases he : s.ended with
      | none => simpa [he] using hnone
      | some status => simp [he] at hnone
    rw [hstatus]
    simpa [Option.filter_some] using hopen
  · intro status hmem
    rw [hended] at hmem
    cases he : s.ended with
    | none =>
      have hfilter : (some watch.status).filter WatchStatus.isTerminal = some status := by
        simpa [he] using hmem
      obtain ⟨hsome, hterminal⟩ := Option.filter_eq_some_iff.mp hfilter
      simpa using hterminal
    | some first =>
      obtain rfl : first = status := by simpa [he] using hmem
      exact h.terminal first he

/-- A step of a coroutine. -/
theorem exec_resume {s : LegacySys} {i : ℕ} {input : Input} {offset : ℚ}
    (ha : (legacyMachine svc u).allowed s (.resume i input offset)) :
    ∃ task m, (s.tasks i).next svc u s.now s.mem input offset = some (task, m) ∧
      (legacyMachine svc u).exec (.resume i input offset) s = s.moved u i task m := by
  obtain ⟨⟨task, m⟩, hnext⟩ := Option.isSome_iff_exists.mp ha.2
  refine ⟨task, m, hnext, ?_⟩
  show (match (s.tasks i).next svc u s.now s.mem input offset with
    | some (task, m) => s.moved u i task m
    | none => s) = _
  rw [hnext]

/-- The record is in its place in every reachable state. -/
theorem kept {s : LegacySys} (h : (legacyMachine svc u).Reach s) : s.Kept u := by
  refine h.invariant ?_ ?_
  · rintro s ⟨⟨watch, hwatch, hid, hactive⟩, hruntime, hidle, -, hended⟩
    refine ⟨⟨watch, hwatch, hid⟩, hruntime, ?_, ?_, by simp [hended]⟩
    · intro i
      rw [hidle i]
      trivial
    · intro _
      rw [status, hwatch, Option.map_some, hactive]
  · intro s label _ ih ha
    have hupdate : ∀ i task, task.Wf u → ({ s with tasks := update s.tasks i task } : LegacySys).Kept u := by
      intro i task hwf
      refine ⟨ih.stored, ih.runtime, fun j => ?_, ih.active, ih.terminal⟩
      show (update s.tasks i task j).Wf u
      rw [Function.update_apply]
      split_ifs
      · exact hwf
      · exact ih.wf j
    cases label with
    | tick now => exact ⟨ih.stored, ih.runtime, ih.wf, ih.active, ih.terminal⟩
    | start i task =>
      refine hupdate i task ?_
      have hentry := ha.2
      cases task <;> trivial
    | crash i => exact hupdate i .idle trivial
    | resume i input offset =>
      obtain ⟨task, m, hnext, hexec⟩ := exec_resume ha
      rw [hexec]
      exact ih.moved hnext

/-- A finished record had a terminal status stored. -/
theorem Kept.ended_of_terminal {s : LegacySys} (h : s.Kept u) {status : WatchStatus}
    (hstatus : s.status u = some status) (hterminal : status.isTerminal = true) : s.ended ≠ none := by
  intro hnone
  have hactive := h.active hnone
  rw [hstatus, Option.some.injEq] at hactive
  subst hactive
  contradiction

/-- After a save the saved status is stored. -/
theorem Kept.status_saved {s : LegacySys} (h : s.Kept u) {i : ℕ} {watch : Watch} {after : AfterSave}
    {result : PollResult} (htask : s.tasks i = .saving watch after result) (task : LegacyTask) :
    (s.moved u i task (s.mem.save watch)).status u = some watch.status := by
  show ((s.mem.save watch).watches.get? u).map Watch.status = _
  rw [(h.saved htask).1]
  rfl

/-- A step that agrees keeps the stored terminal status. -/
theorem statusFinal_moved {s : LegacySys} (h : s.Kept u) (hfinal : StatusFinal u s) {i : ℕ}
    {input : Input} {offset : ℚ} {task : LegacyTask} {m : Memory}
    (hnext : (s.tasks i).next svc u s.now s.mem input offset = some (task, m))
    (hagrees : Agrees u s (.resume i input offset)) : StatusFinal u (s.moved u i task m) := by
  -- What was not finished before is finished with the status that is stored now.
  have hopen : s.ended = none → StatusFinal u (s.moved u i task m) := by
    intro hnone status hmem
    have hfilter : ((m.watches.get? u).map Watch.status).filter WatchStatus.isTerminal = some status := by
      have hmem : (s.ended <|> ((m.watches.get? u).map Watch.status).filter WatchStatus.isTerminal) =
        some status := hmem
      rw [hnone] at hmem
      exact hmem
    exact (Option.filter_eq_some_iff.mp hfilter).1
  cases hended : s.ended with
  | none => exact hopen hended
  | some first =>
    have hstored : s.status u = some first := hfinal first hended
    have hsame : (s.moved u i task m).ended = some first := by
      show (s.ended <|> _) = _
      rw [hended]
      rfl
    have hterminal : first ≠ .active := h.terminal first hended
    have hstatus : (s.moved u i task m).status u = some first := by
      cases (h.effect hnext).1 with
      | kept hmem =>
        subst hmem
        exact hstored
      | ended watch' hactive =>
        have hactive : s.status u = some .active := hactive
        rw [hstored, Option.some.injEq] at hactive
        exact absurd hactive hterminal
      | saved watch after result htask hmem =>
        subst hmem
        rw [h.status_saved htask]
        have hsaves : s.saves (.resume i input offset) = some watch := by
          rw [saves, htask]
          rfl
        rw [hagrees watch hsaves first hstored (by simpa using hterminal)]
    intro status hmem
    rw [hsame] at hmem
    rw [hstatus]
    exact hmem

/-- While the saves agree with the stored status, it is final. -/
theorem statusFinal {s : LegacySys} (h : ((legacyMachine svc u).restrict (Agrees u)).Reach s) :
    StatusFinal u s := by
  refine h.invariant ?_ ?_
  · rintro s ⟨-, -, -, -, hended⟩ status hmem
    rw [hended] at hmem
    contradiction
  · intro s label hr ih ha
    cases label with
    | tick now => exact ih
    | start i task => exact ih
    | crash i => exact ih
    | resume i input offset =>
      obtain ⟨task, m, hnext, hexec⟩ := exec_resume ha.1
      show StatusFinal u ((legacyMachine svc u).exec (.resume i input offset) s)
      rw [hexec]
      exact statusFinal_moved (kept hr.of_restrict) ih hnext ha.2

/-- The stored status is final exactly as long as the saves agree with it. -/
theorem statusFinal_exactlyWhen : (legacyMachine svc u).ExactlyWhen (StatusFinal u) (Agrees u) where
  holds s h := statusFinal h
  breaks s label h ha hbad := by
    cases label with
    | tick now => exact absurd (by simp [Agrees, saves]) hbad
    | start i task => exact absurd (by simp [Agrees, saves]) hbad
    | crash i => exact absurd (by simp [Agrees, saves]) hbad
    | resume i input offset =>
      have hkept := kept h.of_restrict
      obtain ⟨task, m, hnext, hexec⟩ := exec_resume ha
      intro hfinal
      rw [hexec] at hfinal
      cases htask : s.tasks i with
      | saving watch after result =>
        -- The step saves a document of another status over a finished one.
        have hsaves : s.saves (.resume i input offset) = some watch := by
          rw [saves, htask]
          rfl
        simp only [Agrees, hsaves, Option.mem_some_iff, forall_eq', not_forall] at hbad
        obtain ⟨status, hstatus, hterminal, hne⟩ := hbad
        have hmem : m = s.mem.save watch := by
          rw [htask] at hnext
          exact (Prod.mk.inj (Option.some.inj hnext)).2.symm
        subst hmem
        obtain ⟨first, hfirst⟩ := Option.ne_none_iff_exists'.mp (hkept.ended_of_terminal hstatus hterminal)
        have hbefore := statusFinal h first hfirst
        have hafter := hfinal first (by
          show (s.ended <|> _) = _
          rw [hfirst]
          rfl)
        rw [hkept.status_saved htask] at hafter
        have hstatus : s.status u = some status := hstatus
        rw [hstatus] at hbefore
        exact hne ((Option.some.inj hafter).trans (Option.some.inj hbefore).symm)
      | _ => exact absurd (by simp [Agrees, saves, LegacyTask.saves, htask]) hbad

/-! ## The notifications -/

/-- A timely save agrees with what is stored. -/
theorem Timely.agrees {s : LegacySys} {label : LegacyLabel} (h : Timely u s label) : Agrees u s label := by
  intro watch hsaves status hstatus hterminal
  have hstatus : s.status u = some status := hstatus
  rw [h watch hsaves] at hstatus
  obtain rfl := Option.some.inj hstatus
  contradiction

/-- Nothing is sent or owed while the record is active, and afterwards only one notification is. -/
structure Quiet (u : String) (s : LegacySys) : Prop where
  active : s.status u = some .active → (∀ i, (s.tasks i).owes = false) ∧ s.sent = []
  one : ∀ i j, (s.tasks i).owes = true → (s.tasks j).owes = true → i = j
  unsent : ∀ i, (s.tasks i).owes = true → s.sent = []
  sent : s.sent.length ≤ 1

/-- A step from an active record may be the one that finishes it. -/
theorem Quiet.of_active {s : LegacySys} (h : s.Quiet u) (hactive : s.status u = some .active) {i : ℕ}
    {task : LegacyTask} {m : Memory} (hnotice : (s.tasks i).notice = none)
    (howes : task.owes = true → (s.moved u i task m).status u ≠ some .active) :
    (s.moved u i task m).Quiet u := by
  obtain ⟨hnone, hsent⟩ := h.active hactive
  have hsent' : (s.moved u i task m).sent = [] := by
    show (s.tasks i).notice.toList ++ s.sent = []
    rw [hnotice, hsent]
    rfl
  have htasks : ∀ j, ((s.moved u i task m).tasks j).owes = true → j = i ∧ task.owes = true := by
    intro j hj
    have hj : (update s.tasks i task j).owes = true := hj
    rw [Function.update_apply] at hj
    split_ifs at hj with hji
    · exact ⟨hji, hj⟩
    · rw [hnone j] at hj
      contradiction
  refine ⟨fun hstatus => ⟨fun j => ?_, hsent'⟩, fun j k hj hk => ?_, fun _ _ => hsent', by simp [hsent']⟩
  · by_contra hj
    rw [Bool.not_eq_false] at hj
    exact howes (htasks j hj).2 hstatus
  · rw [(htasks j hj).1, (htasks k hk).1]

/-- A step that leaves the store alone announces what is owed, if anything. -/
theorem Quiet.of_kept {s : LegacySys} (h : s.Quiet u) {i : ℕ} {task : LegacyTask}
    (howes : task.owes = true → (s.tasks i).owes = true)
    (hnotice : (s.tasks i).notice ≠ none → (s.tasks i).owes = true ∧ task.owes = false) :
    (s.moved u i task s.mem).Quiet u := by
  have htasks : ∀ j, ((s.moved u i task s.mem).tasks j).owes = true → (s.tasks j).owes = true := by
    intro j hj
    have hj : (update s.tasks i task j).owes = true := hj
    rw [Function.update_apply] at hj
    split_ifs at hj with hji
    · exact hji ▸ howes hj
    · exact hj
  cases hn : (s.tasks i).notice with
  | none =>
    have hsent : (s.moved u i task s.mem).sent = s.sent := by
      show (s.tasks i).notice.toList ++ s.sent = s.sent
      rw [hn]
      rfl
    refine ⟨fun hactive => ⟨fun j => ?_, hsent ▸ (h.active hactive).2⟩,
      fun j k hj hk => h.one j k (htasks j hj) (htasks k hk), fun j hj => hsent ▸ h.unsent j (htasks j hj),
      hsent ▸ h.sent⟩
    by_contra hj
    rw [Bool.not_eq_false] at hj
    exact absurd (htasks j hj) (by simp [(h.active hactive).1 j])
  | some notice =>
    obtain ⟨howed, hpaid⟩ := hnotice (by simp [hn])
    have hsent : (s.moved u i task s.mem).sent = [notice] := by
      show (s.tasks i).notice.toList ++ s.sent = [notice]
      rw [hn, h.unsent i howed]
      rfl
    -- Nobody else owes anything.
    have hnobody : ∀ j, ((s.moved u i task s.mem).tasks j).owes = false := by
      intro j
      by_contra hj
      rw [Bool.not_eq_false] at hj
      obtain rfl := h.one i j howed (htasks j hj)
      have hj : (update s.tasks i task i).owes = true := hj
      rw [Function.update_self, hpaid] at hj
      contradiction
    refine ⟨fun hactive => ?_, fun j k hj => ?_, fun j hj => ?_, by simp [hsent]⟩
    · have hactive : s.status u = some .active := hactive
      rw [(h.active hactive).1 i] at howed
      contradiction
    · rw [hnobody j] at hj
      contradiction
    · rw [hnobody j] at hj
      contradiction

/-- While every save meets an active record, at most one notification is sent. -/
theorem quiet {s : LegacySys} (h : ((legacyMachine svc u).restrict (Timely u)).Reach s) : s.Quiet u := by
  refine h.invariant ?_ ?_
  · rintro s ⟨-, -, hidle, hsent, -⟩
    have hnone : ∀ i, (s.tasks i).owes = false := fun i => by rw [hidle i]; rfl
    exact ⟨fun _ => ⟨hnone, hsent⟩, fun i j hi => by simp [hnone i] at hi, fun _ _ => hsent,
      by simp [hsent]⟩
  · intro s label hr ih ha
    have hupdate : ∀ i task, task.owes = false →
        ({ s with tasks := update s.tasks i task } : LegacySys).Quiet u := by
      intro i task howes
      have htasks : ∀ j, (update s.tasks i task j).owes = true → (s.tasks j).owes = true := by
        intro j hj
        rw [Function.update_apply] at hj
        split_ifs at hj
        · rw [howes] at hj
          contradiction
        · exact hj
      refine ⟨fun hactive => ⟨fun j => ?_, (ih.active hactive).2⟩,
        fun j k hj hk => ih.one j k (htasks j hj) (htasks k hk), fun j hj => ih.unsent j (htasks j hj),
        ih.sent⟩
      by_contra hj
      rw [Bool.not_eq_false] at hj
      exact absurd (htasks j hj) (by simp [(ih.active hactive).1 j])
    cases label with
    | tick now => exact ⟨ih.active, ih.one, ih.unsent, ih.sent⟩
    | start i task =>
      refine hupdate i task ?_
      have hentry := ha.1.2
      cases task <;> trivial
    | crash i => exact hupdate i .idle rfl
    | resume i input offset =>
      have hkept := kept hr.of_restrict
      obtain ⟨task, m, hnext, hexec⟩ := exec_resume ha.1
      show Quiet u ((legacyMachine svc u).exec (.resume i input offset) s)
      rw [hexec]
      cases (hkept.effect hnext).1 with
      | kept hmem howes hnotice =>
        subst hmem
        exact ih.of_kept howes hnotice
      | ended watch' hactive hwatch hid hterminal hruntime hnotice =>
        refine ih.of_active hactive hnotice fun _ hstatus => ?_
        have hstatus : (m.watches.get? u).map Watch.status = some .active := hstatus
        rw [hwatch] at hstatus
        exact hterminal (Option.some.inj hstatus)
      | saved watch after result htask hmem howes =>
        subst hmem
        have hactive : s.status u = some .active := by
          refine ha.2 watch ?_
          show (s.tasks i).saves = some watch
          rw [htask]
          rfl
        refine ih.of_active hactive (by rw [htask]; rfl) fun howed hstatus => ?_
        rw [hkept.status_saved htask] at hstatus
        exact howes howed (Option.some.inj hstatus)

/-- When every save of a run meets an active record, the terminal status is final and at most one
notification is sent, in every state of the run. And the terminal status is final throughout a run
exactly when no save of it meets a finished record of another status. -/
theorem legacy_respects_terminal {s : LegacySys} {labels : List LegacyLabel}
    (hs : (legacyMachine svc u).init s) (hr : (legacyMachine svc u).Runs s labels) :
    ((legacyMachine svc u).EachStep (Timely u) s labels →
        (legacyMachine svc u).Always (Respected u) s labels) ∧
      ((legacyMachine svc u).Always (StatusFinal u) s labels ↔
        (legacyMachine svc u).EachStep (Agrees u) s labels) := by
  refine ⟨fun htimely => ?_, statusFinal_exactlyWhen.always_iff hs hr⟩
  refine .of_eachStep (fun s h => ?_) hs hr htimely
  exact ⟨statusFinal (h.weaken fun _ _ => Timely.agrees), (quiet h).sent⟩

/-! ## Runs -/

instance (svc : WatchService) (u : String) (s : LegacySys) : DecidablePred ((legacyMachine svc u).allowed s)
  | .tick now => inferInstanceAs (Decidable (s.now ≤ now))
  | .start i task => inferInstanceAs (Decidable (s.tasks i = .idle ∧ task.Entry))
  | .resume _ _ offset => inferInstanceAs (Decidable ((_ ≤ offset ∧ offset ≤ _) ∧ _ = true))
  | .crash _ => inferInstanceAs (Decidable True)

/-- A record without a sidecar, due by 1000 s, in an otherwise empty store. -/
def sample : LegacySys where
  now := 0
  mem := (Memory.empty 86400000000).save (.sample "w" false 1000000000 200)
  tasks _ := .idle
  sent := []
  ended := none

theorem sample_init : (legacyMachine .sample "w").init sample :=
  ⟨⟨.sample "w" false 1000000000 200, by decide +kernel⟩, by decide +kernel, fun _ => rfl, rfl, rfl⟩

/-- A delivery reads the record and searches; then the watch is cancelled. -/
def cancelledMeanwhile : List LegacyLabel :=
  [.start 1 .resolving, .resume 1 .proceed 0, .resume 1 .proceed 0, .start 2 .cancelling,
    .resume 2 .proceed 0]

/-- The delivery goes on after the cancellation: it found nothing, and saves the watch to check it
again. -/
def savesOver : List LegacyLabel := cancelledMeanwhile ++ [.resume 1 (.slots []) 0, .resume 1 .proceed 0]

/-- A delivery that nobody disturbs finds a slot and announces it. -/
def undisturbed : List LegacyLabel :=
  [.start 1 .resolving, .resume 1 .proceed 0, .resume 1 .proceed 0,
    .resume 1 (.slots [.sample "s"]) 0, .resume 1 .proceed 0, .resume 1 .proceed 0, .resume 1 .proceed 0]

/-- The undisturbed delivery announces its slot once. -/
theorem legacy_respects_terminal_undisturbed :
    ((legacyMachine .sample "w").final sample undisturbed).sent.length = 1 ∧
      Respected "w" ((legacyMachine .sample "w").final sample undisturbed) := by
  have hr : (legacyMachine .sample "w").Runs sample undisturbed := by decide +kernel
  have htimely : (legacyMachine .sample "w").EachStep (Timely "w") sample undisturbed := by decide +kernel
  exact ⟨by decide +kernel, ((legacy_respects_terminal sample_init hr).1 htimely).final⟩

/-- A poll that started before the cancellation turns the cancelled watch back into an active one. -/
theorem cancelled_watch_reactivated :
    (legacyMachine .sample "w").init sample ∧ (legacyMachine .sample "w").Runs sample savesOver ∧
      ((legacyMachine .sample "w").final sample cancelledMeanwhile).status "w" = some .cancelled ∧
      ((legacyMachine .sample "w").final sample savesOver).status "w" = some .active := by
  exact ⟨sample_init, by decide +kernel, by decide +kernel, by decide +kernel⟩

end LegacySys

end Dibs
