import Dibs.Integrations.Base
import Dibs.Service.Plan
import Dibs.Store.Steps

/-!
# Deliveries, one await at a time

The coroutines of `WatchService` in `backend/services/watch_service.py` as a machine of program
points: a `Task` is a coroutine suspended at an await, with the locals it still needs, and
`Task.next` is what it does from there to its next await. `Task.op` is the repository method that it
awaits, if it awaits one, so every step of a task makes at most one call of the store.

What a provider or the clock decides is an `Input` of the step. A deadline can fall at every await
inside the provider sequence; an exception that the source does not catch ends the task like a crash
and has no transition here. Records of the history projection and notifications are best effort in
the source, so a step past them does not say whether they arrived.

The compatibility path for records without a window is entered at `Task.legacy` and not followed
further.
-/

namespace Dibs

/-- `_POLL_LEASE_SECONDS`: how long a poll owns its cadence window. -/
def pollLease : Duration := 120000000

/-- `_RECONCILE_ATTEMPTS`: how often one poll asks the provider to reconcile an ambiguous booking. -/
def reconcileAttempts : ℕ := 3

/-- `WatchEvent`: why a watch is worth telling its owner about. -/
inductive WatchEvent
  | availabilityFound
  | booked
  | expired
deriving DecidableEq

/-- `_EVENT_FOR`. -/
def eventFor : WatchStatus → Option WatchEvent
  | .found => some .availabilityFound
  | .booked => some .booked
  | .expired => some .expired
  | .active | .cancelled => none

/-- `WatchPollOutcome`: what one poll did. -/
inductive PollOutcome
  | unknownWatch
  | alreadyFinished
  | noAvailability
  | found
  | booked
  | expired
deriving DecidableEq

/-- `_OUTCOME_FOR`, and what a delivery reports for a cancelled watch. -/
def outcomeFor : WatchStatus → PollOutcome
  | .found => .found
  | .booked => .booked
  | .expired => .expired
  | .active | .cancelled => .alreadyFinished

/-- `WatchPollResult`. -/
structure PollResult where
  outcome : PollOutcome
  watch : Option Watch
  retryInSeconds : Option ℚ
deriving DecidableEq

/-- `_noop`: a delivery with no remaining work. -/
def noop : Option Watch → PollResult
  | none => ⟨.unknownWatch, none, none⟩
  | some watch => ⟨.alreadyFinished, some watch, none⟩

/-- What a coroutine returns. -/
inductive Returned
  | poll (result : PollResult)
  | watch (watch : Option Watch)
  | transition (result : TransitionResult)
deriving DecidableEq

/-- What is left to do after a transition was applied. -/
inductive After
  | nothing
  | publish (windowId : Option String) (delaySeconds : ℚ) (dueAt : Time)
  | notify (event : WatchEvent)
deriving DecidableEq

/-- A coroutine at an await. -/
inductive Task
  /-- There is no coroutine. -/
  | idle
  /-- `create`, before `create_with_schedule`. -/
  | creating (watch : Watch) (runtime : WatchRuntime)
  /-- `cancel`, before `cancel_if_active`. -/
  | cancelling (watchId : String)
  /-- `expire`, before `expire_if_eligible`. -/
  | expiring (watchId : String)
  /-- `poll_once`, before `get_runtime`. -/
  | resolving (watchId owner : String)
  /-- `poll_once`, before `get`. -/
  | fetching (watchId : String)
  /-- `_legacy_poll_once`. -/
  | legacy (watch : Watch)
  /-- `poll_window`, before `claim_window`. -/
  | claiming (watchId windowId owner : String) (enforceDue : Bool)
  /-- Before the `get` of a delivery that has nothing to do. -/
  | reporting (watchId : String)
  /-- `_run_claimed`, before it reads the clock. -/
  | owning (claim : WindowClaim)
  /-- `_provider_sequence`, before `get_booking`. -/
  | replaying (claim : WindowClaim) (now : Time)
  /-- `_provider_sequence`, before `search_availability`. -/
  | searching (claim : WindowClaim) (now : Time)
  /-- `_auto_book_sequence`, before `begin_booking`. -/
  | permitting (claim : WindowClaim) (now : Time) (slots : List AvailabilitySlot)
  /-- `_book`, before `book_slot` on the first of the slots left. -/
  | booking (claim : WindowClaim) (now : Time) (slot : AvailabilitySlot)
      (rest : List AvailabilitySlot)
  /-- `_cancel_requested`, before `get_runtime`; with the ambiguous error, if there was one. -/
  | checking (claim : WindowClaim) (now : Time) (error : Option String)
  /-- `_resolve_ambiguous`, before `reconcile_booking`, with the further attempts left. -/
  | reconciling (claim : WindowClaim) (now : Time) (left : ℕ) (error : String)
  /-- Before `release_claim`. -/
  | releasing (claim : WindowClaim)
  /-- Before `commit_window`. -/
  | committing (claim : WindowClaim) (verdict : Verdict) (plan : Plan)
  /-- Before the history record of an applied transition. -/
  | recording (watch : Watch) (revision : ℕ) (after : After) (result : Returned)
  /-- Before the publication or the notification of an applied transition. -/
  | announcing (watch : Watch) (after : After) (result : Returned)
  /-- The coroutine has returned. -/
  | finished (result : Returned)
deriving DecidableEq

/-- How an await of the provider can fail. -/
inductive Failure
  | timeout
  | raised (error : AdapterError)
deriving DecidableEq

/-- What the environment contributes to a step of a task. -/
inductive Input
  /-- The store, the clock, the history or the notifier did what it was asked. -/
  | proceed
  | failed (failure : Failure)
  | booking (found : Option BookingConfirmation)
  | slots (slots : List AvailabilitySlot)
  | confirmed (confirmation : BookingConfirmation)
  | reconciled (answer : Reconciliation)
deriving DecidableEq

/-- `_idempotency_key`. -/
def idempotencyKey (watchId : String) : String := "watch:" ++ watchId

/-- `str(exc)[:500]`, or a general text when it is empty. -/
def errorText (message : String) : String :=
  let text := String.ofList (message.toList.take 500)
  if text = "" then "The reservation provider failed" else text

/-- The handlers of `_run_claimed`: a deadline or a provider error is an outage, and an expected slot
race is a miss. -/
def Failure.verdict : Failure → Verdict
  | .timeout => .outage "The reservation provider timed out"
  | .raised (.slotNotFound _) | .raised (.slotUnavailable _) => .miss
  | .raised (.other message) => .outage (errorText message)

/-- The repository method that a task awaits; a deadline comes before the call. -/
def Task.op (input : Input) : Task → Option Op
  | .creating watch runtime => some (.create watch runtime)
  | .cancelling u => some (.cancel u)
  | .expiring u => some (.expire u none false)
  | .claiming u w o enforceDue => some (.claim u w o pollLease (!enforceDue))
  | .permitting c _ _ => if input = .proceed then some (.begin c) else none
  | .releasing c => some (.release c)
  | .committing c _ plan => some (.commit c plan.watch plan.runtime)
  | _ => none

section Next

variable (svc : WatchService) (s : Store) (input : Input) (offset : ℚ) (reply : Option Reply)

/-- The task that commits a verdict. -/
def Task.commit (claim : WindowClaim) (now : Time) (verdict : Verdict) : Task :=
  .committing claim verdict (verdict.plan svc claim now offset)

/-- An await of the provider sequence that fails. -/
def Task.failing (claim : WindowClaim) (now : Time) : Option Task :=
  match input with
  | .failed failure => some (.commit svc offset claim now failure.verdict)
  | _ => none

/-- An await inside the provider sequence that is not one of the adapter: only the deadline can end
it. -/
def Task.overdue (claim : WindowClaim) (now : Time) : Option Task :=
  if input = .failed .timeout then some (.commit svc offset claim now Failure.timeout.verdict)
  else none

/-- `poll_once` after `get_runtime`. -/
def nextResolving (u owner : String) : Task :=
  match (s.row u).runtime.bind WatchRuntime.windowId with
  | some w => .claiming u w owner false
  | none => .fetching u

/-- `poll_once` after `get`. -/
def nextFetching (u : String) : Task :=
  match (s.row u).watch with
  | none => .finished (.poll (noop none))
  | some watch => if watch.status.isTerminal then .finished (.poll (noop (some watch))) else .legacy watch

/-- `poll_window` after `claim_window`. -/
def nextClaiming (u : String) : Option Task :=
  match reply with
  | some (.claim (.owned c)) => some (.owning c)
  | some (.claim .unknown) => some (.finished (.poll (noop none)))
  | some (.claim _) => some (.reporting u)
  | _ => none

/-- `_run_claimed` after it has read the clock. -/
def nextOwning (now : Time) (c : WindowClaim) : Task :=
  if c.watch.expiresAt ≤ now ∨ c.watch.maxAttempts ≤ c.watch.attempts then
    .commit svc offset c now .exhausted
  else if c.watch.autoBook then .replaying c now
  else .searching c now

/-- `_provider_sequence` after `get_booking`. -/
def nextReplaying (c : WindowClaim) (now : Time) : Option Task :=
  match input with
  | .booking (some confirmation) => some (.commit svc offset c now (.booked confirmation false))
  | .booking none => some (.searching c now)
  | input => Task.failing svc input offset c now

/-- `_provider_sequence` after `search_availability`. -/
def nextSearching (c : WindowClaim) (now : Time) : Option Task :=
  match input with
  | .slots [] => some (.commit svc offset c now .miss)
  | .slots slots =>
    if c.watch.autoBook then some (.permitting c now slots)
    else some (.commit svc offset c now (.found slots))
  | input => Task.failing svc input offset c now

/-- `_auto_book_sequence` after `begin_booking`. -/
def nextPermitting (c : WindowClaim) (now : Time) (slots : List AvailabilitySlot) : Option Task :=
  match input, reply with
  | .proceed, some (.begin (.granted _)) =>
    match slots with
    | slot :: rest => some (.booking c now slot rest)
    | [] => some (.checking c now none)
  | .proceed, some (.begin .cancelled) => some (.commit svc offset c now .cancelled)
  | .proceed, some (.begin .fenced) => some (.releasing c)
  | input, _ => Task.overdue svc input offset c now

/-- `_book` after `book_slot`, and what `_auto_book_sequence` does with its result. -/
def nextBooking (c : WindowClaim) (now : Time) (rest : List AvailabilitySlot) : Option Task :=
  match input with
  | .confirmed confirmation => some (.commit svc offset c now (.booked confirmation true))
  | .failed (.raised (.slotNotFound _)) | .failed (.raised (.slotUnavailable _)) =>
    match rest with
    | slot :: rest => some (.booking c now slot rest)
    | [] => some (.checking c now none)
  | .failed (.raised (.other message)) => some (.reconciling c now (reconcileAttempts - 1) message)
  | input => Task.overdue svc input offset c now

/-- What follows `_cancel_requested`: the cancellation, the ambiguous error again, or a miss. -/
def nextChecking (c : WindowClaim) (now : Time) (error : Option String) : Option Task :=
  match input with
  | .proceed =>
    if (s.row c.watch.watchId).runtime.any WatchRuntime.cancelRequested then
      some (.commit svc offset c now .cancelled)
    else match error with
      | none => some (.commit svc offset c now .miss)
      | some message => some (.commit svc offset c now (.outage (errorText message)))
  | input => Task.overdue svc input offset c now

/-- `_resolve_ambiguous` after `reconcile_booking`. -/
def nextReconciling (c : WindowClaim) (now : Time) (left : ℕ) (message : String) : Option Task :=
  match input with
  | .reconciled (.confirmed confirmation) =>
    some (.commit svc offset c now (.booked confirmation true))
  | .reconciled .definitivelyAbsent => some (.checking c now (some message))
  | .reconciled .unknown =>
    match left with
    | 0 => some (.commit svc offset c now (.outage (errorText message)))
    | left + 1 => some (.reconciling c now left message)
  | input => Task.failing svc input offset c now

/-- What follows `commit_window`: a transition that was applied is recorded, and announced when it
has an event. -/
def nextCommitting (c : WindowClaim) (plan : Plan) : Option Task :=
  match reply with
  | some (.commit (.committed watch eventId)) =>
    let revision := c.runtime.revision + 1
    match plan.followup with
    | .dispatch delay dueAt => some (.recording watch revision
        (.publish plan.runtime.windowId delay dueAt)
        (.poll ⟨.noAvailability, some watch, some delay⟩))
    | .announce =>
      let after := match eventId, eventFor watch.status with
        | some _, some event => After.notify event
        | _, _ => After.nothing
      some (.recording watch revision after (.poll ⟨outcomeFor watch.status, some watch, none⟩))
  | some (.commit _) => some (.reporting c.watch.watchId)
  | _ => none

/-- `cancel` after `cancel_if_active`. -/
def nextCancelling : Option Task :=
  match reply with
  | some (.transition (.applied watch _ revision)) =>
    some (.recording watch revision .nothing (.watch (some watch)))
  | some (.transition (.noop watch)) | some (.transition (.notEligible watch)) =>
    some (.finished (.watch (some watch)))
  | some (.transition .unknown) | some (.transition .fenced) => some (.finished (.watch none))
  | _ => none

/-- `expire` after `expire_if_eligible`. -/
def nextExpiring : Option Task :=
  match reply with
  | some (.transition (.applied watch eventId revision)) =>
    let after := if eventId.isSome then After.notify .expired else After.nothing
    some (.recording watch revision after (.transition (.applied watch eventId revision)))
  | some (.transition result) => some (.finished (.transition result))
  | _ => none

/-- `create` after `create_with_schedule`. -/
def nextCreating (now : Time) (runtime : WatchRuntime) : Option Task :=
  match reply with
  | some (.create (.created stored _)) | some (.create (.alreadyExists stored _)) =>
    some (.recording stored 0 (.publish runtime.windowId 0 now) (.watch (some stored)))
  | _ => none

/-- The next await of a task, when the input is one that it can get there. -/
def Task.next : Task → Option Task
  | .creating _ runtime => nextCreating reply s.now runtime
  | .cancelling _ => nextCancelling reply
  | .expiring _ => nextExpiring reply
  | .resolving u owner => some (nextResolving s u owner)
  | .fetching u => some (nextFetching s u)
  | .claiming u _ _ _ => nextClaiming reply u
  | .reporting u => some (.finished (.poll (noop (s.row u).watch)))
  | .owning c => some (nextOwning svc offset s.now c)
  | .replaying c now => nextReplaying svc input offset c now
  | .searching c now => nextSearching svc input offset c now
  | .permitting c now slots => nextPermitting svc input offset reply c now slots
  | .booking c now _ rest => nextBooking svc input offset c now rest
  | .checking c now error => nextChecking svc s input offset c now error
  | .reconciling c now left message => nextReconciling svc input offset c now left message
  | .releasing c => some (.reporting c.watch.watchId)
  | .committing c _ plan => nextCommitting reply c plan
  | .recording watch _ after result => some (.announcing watch after result)
  | .announcing _ _ result => some (.finished result)
  | .idle | .legacy _ | .finished _ => none

end Next

/-- The steps of tasks, one constructor for each way from an await to the next. -/
inductive Task.Step (svc : WatchService) (s : Store) (offset : ℚ) :
    Task → Input → Option Reply → Task → Prop
  | create {watch runtime stored input reply}
      (hreply : (∃ r, reply = some (.create (.created stored r))) ∨
        ∃ r, reply = some (.create (.alreadyExists stored r))) :
      Step svc s offset (.creating watch runtime) input reply
        (.recording stored 0 (.publish runtime.windowId 0 s.now) (.watch (some stored)))
  | cancelled {u watch eventId revision input} :
      Step svc s offset (.cancelling u) input (some (.transition (.applied watch eventId revision)))
        (.recording watch revision .nothing (.watch (some watch)))
  | notCancelled {u result input reply} :
      Step svc s offset (.cancelling u) input reply (.finished result)
  | expired {u watch eventId revision input} :
      Step svc s offset (.expiring u) input (some (.transition (.applied watch eventId revision)))
        (.recording watch revision (if eventId.isSome then .notify .expired else .nothing)
          (.transition (.applied watch eventId revision)))
  | notExpired {u result input reply} :
      Step svc s offset (.expiring u) input reply (.finished result)
  | resolved {u w owner input reply}
      (hwindow : (s.row u).runtime.bind WatchRuntime.windowId = some w) :
      Step svc s offset (.resolving u owner) input reply (.claiming u w owner false)
  | unresolved {u owner input reply}
      (hwindow : (s.row u).runtime.bind WatchRuntime.windowId = none) :
      Step svc s offset (.resolving u owner) input reply (.fetching u)
  | fetched {u result input reply} : Step svc s offset (.fetching u) input reply (.finished result)
  | legacy {u watch input reply} (hwatch : (s.row u).watch = some watch)
      (hactive : watch.status = .active) :
      Step svc s offset (.fetching u) input reply (.legacy watch)
  | owned {u w o enforceDue c input} :
      Step svc s offset (.claiming u w o enforceDue) input (some (.claim (.owned c))) (.owning c)
  | unknown {u w o enforceDue result input reply} :
      Step svc s offset (.claiming u w o enforceDue) input reply (.finished result)
  | notOwned {u w o enforceDue input reply} :
      Step svc s offset (.claiming u w o enforceDue) input reply (.reporting u)
  | reported {u result input reply} :
      Step svc s offset (.reporting u) input reply (.finished result)
  | exhausted {c input reply}
      (hover : c.watch.expiresAt ≤ s.now ∨ c.watch.maxAttempts ≤ c.watch.attempts) :
      Step svc s offset (.owning c) input reply (.commit svc offset c s.now .exhausted)
  | autoBook {c input reply} (hauto : c.watch.autoBook = true) (hbefore : s.now < c.watch.expiresAt)
      (hbelow : c.watch.attempts < c.watch.maxAttempts) :
      Step svc s offset (.owning c) input reply (.replaying c s.now)
  | monitor {c input reply} (hauto : c.watch.autoBook = false) (hbefore : s.now < c.watch.expiresAt)
      (hbelow : c.watch.attempts < c.watch.maxAttempts) :
      Step svc s offset (.owning c) input reply (.searching c s.now)
  | replayed {c now confirmation reply} :
      Step svc s offset (.replaying c now) (.booking (some confirmation)) reply
        (.commit svc offset c now (.booked confirmation false))
  | noReplay {c now reply} :
      Step svc s offset (.replaying c now) (.booking none) reply (.searching c now)
  | failed {task c now failure reply}
      (hawait : task = .replaying c now ∨ task = .searching c now ∨
        ∃ left message, task = .reconciling c now left message) :
      Step svc s offset task (.failed failure) reply (.commit svc offset c now failure.verdict)
  | overdue {task c now reply}
      (hawait : (∃ slots, task = .permitting c now slots) ∨
        (∃ slot rest, task = .booking c now slot rest) ∨ ∃ error, task = .checking c now error) :
      Step svc s offset task (.failed .timeout) reply
        (.commit svc offset c now Failure.timeout.verdict)
  | nothingFound {c now reply} :
      Step svc s offset (.searching c now) (.slots []) reply (.commit svc offset c now .miss)
  | found {c now slots reply} (hauto : c.watch.autoBook = false) :
      Step svc s offset (.searching c now) (.slots slots) reply
        (.commit svc offset c now (.found slots))
  | tryBooking {c now slots reply} (hauto : c.watch.autoBook = true) :
      Step svc s offset (.searching c now) (.slots slots) reply (.permitting c now slots)
  | granted {c now slot rest permitId} :
      Step svc s offset (.permitting c now (slot :: rest)) .proceed
        (some (.begin (.granted permitId))) (.booking c now slot rest)
  | grantedNothing {c now permitId} :
      Step svc s offset (.permitting c now []) .proceed (some (.begin (.granted permitId)))
        (.checking c now none)
  | permitCancelled {c now slots} :
      Step svc s offset (.permitting c now slots) .proceed (some (.begin .cancelled))
        (.commit svc offset c now .cancelled)
  | permitFenced {c now slots} :
      Step svc s offset (.permitting c now slots) .proceed (some (.begin .fenced)) (.releasing c)
  | booked {c now slot rest confirmation reply} :
      Step svc s offset (.booking c now slot rest) (.confirmed confirmation) reply
        (.commit svc offset c now (.booked confirmation true))
  | nextSlot {c now slot slot' rest error reply} (hrace : error.isSlotRace = true) :
      Step svc s offset (.booking c now slot (slot' :: rest)) (.failed (.raised error)) reply
        (.booking c now slot' rest)
  | noSlotLeft {c now slot error reply} (hrace : error.isSlotRace = true) :
      Step svc s offset (.booking c now slot []) (.failed (.raised error)) reply
        (.checking c now none)
  | ambiguous {c now slot rest message reply} :
      Step svc s offset (.booking c now slot rest) (.failed (.raised (.other message))) reply
        (.reconciling c now (reconcileAttempts - 1) message)
  | cancelRequested {c now error reply}
      (hflag : (s.row c.watch.watchId).runtime.any WatchRuntime.cancelRequested = true) :
      Step svc s offset (.checking c now error) .proceed reply (.commit svc offset c now .cancelled)
  | missed {c now reply}
      (hflag : (s.row c.watch.watchId).runtime.any WatchRuntime.cancelRequested = false) :
      Step svc s offset (.checking c now none) .proceed reply (.commit svc offset c now .miss)
  | absent {c now message reply}
      (hflag : (s.row c.watch.watchId).runtime.any WatchRuntime.cancelRequested = false) :
      Step svc s offset (.checking c now (some message)) .proceed reply
        (.commit svc offset c now (.outage (errorText message)))
  | confirmed {c now left message confirmation reply} :
      Step svc s offset (.reconciling c now left message) (.reconciled (.confirmed confirmation)) reply
        (.commit svc offset c now (.booked confirmation true))
  | definitivelyAbsent {c now left message reply} :
      Step svc s offset (.reconciling c now left message) (.reconciled .definitivelyAbsent) reply
        (.checking c now (some message))
  | stillUnknown {c now left message reply} :
      Step svc s offset (.reconciling c now (left + 1) message) (.reconciled .unknown) reply
        (.reconciling c now left message)
  | neverKnown {c now message reply} :
      Step svc s offset (.reconciling c now 0 message) (.reconciled .unknown) reply
        (.commit svc offset c now (.outage (errorText message)))
  | released {c input reply} :
      Step svc s offset (.releasing c) input reply (.reporting c.watch.watchId)
  | rescheduled {c verdict plan watch eventId delay dueAt result input}
      (hfollowup : plan.followup = .dispatch delay dueAt) :
      Step svc s offset (.committing c verdict plan) input
        (some (.commit (.committed watch eventId)))
        (.recording watch (c.runtime.revision + 1) (.publish plan.runtime.windowId delay dueAt) result)
  | committed {c verdict plan watch eventId after result input} (hfollowup : plan.followup = .announce)
      (hafter : after = .nothing ∨ ∃ event, after = .notify event ∧ eventId.isSome = true ∧
        eventFor watch.status = some event) :
      Step svc s offset (.committing c verdict plan) input
        (some (.commit (.committed watch eventId)))
        (.recording watch (c.runtime.revision + 1) after result)
  | notCommitted {c verdict plan input reply} :
      Step svc s offset (.committing c verdict plan) input reply (.reporting c.watch.watchId)
  | recorded {watch revision after result input reply} :
      Step svc s offset (.recording watch revision after result) input reply
        (.announcing watch after result)
  | announced {watch after result input reply} :
      Step svc s offset (.announcing watch after result) input reply (.finished result)

/-- Everything the next await of a task can be. -/
theorem Task.next_step {svc : WatchService} {s : Store} {input : Input} {offset : ℚ}
    {reply : Option Reply} {task task' : Task} (h : task.next svc s input offset reply = some task') :
    Task.Step svc s offset task input reply task' := by
  cases task with
  | idle | legacy | finished => contradiction
  | creating watch runtime =>
    simp only [next, nextCreating] at h
    split at h <;> simp only [Option.some.injEq, reduceCtorEq] at h <;> subst h
    · exact .create (.inl ⟨_, rfl⟩)
    · exact .create (.inr ⟨_, rfl⟩)
  | cancelling u =>
    simp only [next, nextCancelling] at h
    split at h <;> simp only [Option.some.injEq, reduceCtorEq] at h <;> subst h
    · exact .cancelled
    all_goals exact .notCancelled
  | expiring u =>
    simp only [next, nextExpiring] at h
    split at h <;> simp only [Option.some.injEq, reduceCtorEq] at h <;> subst h
    · exact .expired
    · exact .notExpired
  | resolving u owner =>
    simp only [next, nextResolving, Option.some.injEq] at h
    split at h <;> subst h
    · exact .resolved ‹_›
    · exact .unresolved ‹_›
  | fetching u =>
    simp only [next, nextFetching, Option.some.injEq] at h
    split at h
    · subst h
      exact .fetched
    · split_ifs at h with hterm <;> subst h
      · exact .fetched
      · exact .legacy ‹_› (by simpa using hterm)
  | claiming u w o enforceDue =>
    simp only [next, nextClaiming] at h
    split at h <;> simp only [Option.some.injEq, reduceCtorEq] at h <;> subst h
    · exact .owned
    · exact .unknown
    · exact .notOwned
  | reporting u =>
    obtain rfl := Option.some.inj h
    exact .reported
  | owning c =>
    simp only [next, nextOwning, Option.some.injEq] at h
    split_ifs at h with hover hauto <;> subst h
    · exact .exhausted hover
    · obtain ⟨hbefore, hbelow⟩ := not_or.mp hover
      exact .autoBook hauto (not_le.mp hbefore) (not_le.mp hbelow)
    · obtain ⟨hbefore, hbelow⟩ := not_or.mp hover
      exact .monitor (by simpa using hauto) (not_le.mp hbefore) (not_le.mp hbelow)
  | replaying c now =>
    simp only [next, nextReplaying, Task.failing] at h
    split at h
    · obtain rfl := Option.some.inj h
      exact .replayed
    · obtain rfl := Option.some.inj h
      exact .noReplay
    · split at h <;> simp only [Option.some.injEq, reduceCtorEq] at h
      subst h
      exact .failed (.inl rfl)
  | searching c now =>
    simp only [next, nextSearching, Task.failing] at h
    split at h
    · obtain rfl := Option.some.inj h
      exact .nothingFound
    · split_ifs at h with hauto <;> simp only [Option.some.injEq] at h <;> subst h
      · exact .tryBooking hauto
      · exact .found (by simpa using hauto)
    · split at h <;> simp only [Option.some.injEq, reduceCtorEq] at h
      subst h
      exact .failed (.inr (.inl rfl))
  | permitting c now slots =>
    simp only [next, nextPermitting, Task.overdue] at h
    split at h
    · split at h <;> simp only [Option.some.injEq] at h <;> subst h
      · exact .granted
      · exact .grantedNothing
    · obtain rfl := Option.some.inj h
      exact .permitCancelled
    · obtain rfl := Option.some.inj h
      exact .permitFenced
    · split_ifs at h with hinput
      simp only [Option.some.injEq] at h
      subst h hinput
      exact .overdue (.inl ⟨slots, rfl⟩)
  | booking c now slot rest =>
    simp only [next, nextBooking, Task.overdue] at h
    split at h
    · obtain rfl := Option.some.inj h
      exact .booked
    · split at h <;> simp only [Option.some.injEq] at h <;> subst h
      · exact .nextSlot rfl
      · exact .noSlotLeft rfl
    · split at h <;> simp only [Option.some.injEq] at h <;> subst h
      · exact .nextSlot rfl
      · exact .noSlotLeft rfl
    · obtain rfl := Option.some.inj h
      exact .ambiguous
    · split_ifs at h with hinput
      simp only [Option.some.injEq] at h
      subst h hinput
      exact .overdue (.inr (.inl ⟨slot, rest, rfl⟩))
  | checking c now error =>
    simp only [next, nextChecking, Task.overdue] at h
    split at h
    · split_ifs at h with hflag
      · obtain rfl := Option.some.inj h
        exact .cancelRequested hflag
      · split at h <;> simp only [Option.some.injEq] at h <;> subst h
        · exact .missed (by simpa using hflag)
        · exact .absent (by simpa using hflag)
    · split_ifs at h with hinput
      simp only [Option.some.injEq] at h
      subst h hinput
      exact .overdue (.inr (.inr ⟨error, rfl⟩))
  | reconciling c now left message =>
    simp only [next, nextReconciling, Task.failing] at h
    split at h
    · obtain rfl := Option.some.inj h
      exact .confirmed
    · obtain rfl := Option.some.inj h
      exact .definitivelyAbsent
    · split at h <;> simp only [Option.some.injEq] at h <;> subst h
      · exact .neverKnown
      · exact .stillUnknown
    · split at h <;> simp only [Option.some.injEq, reduceCtorEq] at h
      subst h
      exact .failed (.inr (.inr ⟨left, message, rfl⟩))
  | releasing c =>
    obtain rfl := Option.some.inj h
    exact .released
  | committing c verdict plan =>
    simp only [next, nextCommitting] at h
    split at h
    · split at h
      · obtain rfl := Option.some.inj h
        exact .rescheduled ‹_›
      · obtain rfl := Option.some.inj h
        refine .committed ‹_› ?_
        split
        · exact .inr ⟨_, rfl, rfl, ‹_›⟩
        · exact .inl rfl
    · obtain rfl := Option.some.inj h
      exact .notCommitted
    · contradiction
  | recording watch revision after result =>
    obtain rfl := Option.some.inj h
    exact .recorded
  | announcing watch after result =>
    obtain rfl := Option.some.inj h
    exact .announced

end Dibs
