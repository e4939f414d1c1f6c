import Mathlib.Control.Monad.Basic
import Dibs.History.Table
import Dibs.Models.Calendar
import Dibs.Models.Validation
import Dibs.Redis.Effects
import Dibs.Service.Policy
import Dibs.Service.System

/-!
# Creating a watch

`WatchService.create` of `backend/services/watch_service.py` over a live store and the history
projection. Each of its awaited steps may return, or let an exception or the cancellation of the caller
come out, after its effect or before it; an effect that was made stays.

The account of a watch is recorded before the live store learns of it, so that no account watch is ever
live without its row (`account_creation_ordered`). The two writes have no common transaction: when the
creation stops between them, the row stays alone.
-/

namespace Dibs

/-- How one awaited step ends. -/
inductive Ending
  | returned
  /-- An exception comes out, and the effect was made or not. -/
  | raised (applied : Bool)
  /-- The caller is cancelled in the step, and the effect was made or not. -/
  | cancelled (applied : Bool)
deriving DecidableEq

/-- Whether the effect of the step was made. -/
def Ending.applied : Ending → Bool
  | .returned => true
  | .raised applied | .cancelled applied => applied

/-- How the awaited steps of one `create` end. -/
structure CreateEndings where
  /-- `history.record`. -/
  recording : Ending
  /-- `create_with_schedule`. -/
  storing : Ending
  /-- `enqueue_watch_poll`. -/
  publishing : Ending

/-- What comes out of `create` in place of a watch. -/
inductive CreateError
  | pastReservationDate (message : String)
  /-- A `ValueError`, `OverflowError` or `ValidationError` of a step that awaits nothing. -/
  | value (message : String)
  | ownershipUnavailable (message : String)
  /-- The exception of an awaited step. -/
  | failed
  | cancelled
deriving DecidableEq

/-- The repository of the live watches. -/
inductive LiveStore
  | memory (m : Memory)
  | redis (db : Redis)

/-- The stores that `create` writes to. -/
structure Stores where
  live : LiveStore
  history : Option WatchHistory
  published : List Publication

/-- A coroutine over the stores. -/
abbrev Creating := ExceptT CreateError (StateM Stores)

namespace Creating

/-- An awaited step with an effect. -/
def await (ending : Ending) {α : Type} (effect : Stores → α × Stores) : Creating α := fun s =>
  match ending with
  | .returned => ((effect s).map .ok id : Except CreateError α × Stores)
  | .raised applied => (.error .failed, if applied then (effect s).2 else s)
  | .cancelled applied => (.error .cancelled, if applied then (effect s).2 else s)

/-- `try: … except Exception: …`: a cancellation is no `Exception`. -/
def exceptException {α : Type} (step : Creating α) (handler : Creating α) : Creating α :=
  tryCatch step fun
    | .cancelled => throw .cancelled
    | _ => handler

end Creating

namespace LiveStore

/-- `create_with_schedule` of either repository. -/
def createWithSchedule (live : LiveStore) (watch : Watch) (runtime : WatchRuntime) :
    CreateResult × LiveStore :=
  match live with
  | .memory m => (m.createWithSchedule watch runtime).map id .memory
  | .redis db => (db.create watch runtime).map id .redis

/-- `get` of either repository. -/
def get (live : LiveStore) (watchId : String) : Option Watch :=
  match live with
  | .memory m => m.watches.get? watchId
  | .redis db => db.get watchId

end LiveStore

/-- The watch that a result carries. -/
def CreateResult.watch : CreateResult → Watch
  | .created watch _ | .alreadyExists watch _ => watch

/-- `default_expiry`: midnight after the reservation date, but at least a minute away. -/
def defaultExpiry (date : ℕ) (createdAt : Time) (zone : Zone) : Except CreateError Time :=
  if maxOrdinal < date + 1 then .error (.value "date value out of range")
  else .ok (max (zone.midnight (date + 1)) (createdAt + 60000000))

/-- The message of `WatchOwnershipUnavailableError`. -/
def ownershipUnavailable : CreateError :=
  .ownershipUnavailable "Account watch creation is temporarily unavailable. Try again later."

/-- The arguments of the first `record` of a new watch. -/
def creationCall (watch : Watch) (ownerClientId userId : Option String) : HistoryCall :=
  ⟨watch, ownerClientId, userId, 0⟩

namespace Stores

/-- The effect of `history.record`. -/
def record (call : HistoryCall) (s : Stores) : Unit × Stores :=
  ((), { s with history := s.history.map (·.record call) })

/-- The effect of `create_with_schedule`. -/
def createWithSchedule (watch : Watch) (runtime : WatchRuntime) (s : Stores) : CreateResult × Stores :=
  ((s.live.createWithSchedule watch runtime).1,
    { s with live := (s.live.createWithSchedule watch runtime).2 })

/-- The effect of `enqueue_watch_poll`. -/
def publish (p : Publication) (s : Stores) : Unit × Stores :=
  ((), { s with published := p :: s.published })

end Stores

namespace WatchService

open Creating (await exceptException)

/-- The part of `create` before its first write: the documents to store. -/
def openWatch (svc : WatchService) (maxAttempts : ℕ) (zone : Zone) (now : Time) (watchId : String)
    (query : AvailabilityQuery) (autoBook : Bool) : Except CreateError (Watch × WatchRuntime) := do
  let some date := dateOrdinal query.date | throw (.value ("Invalid isoformat string: " ++ query.date))
  if date < zone.localDate now then
    throw (.pastReservationDate ("Cannot watch a reservation date in the past: " ++ query.date))
  let expiresAt ← defaultExpiry date now zone
  match derive svc.schedule now expiresAt maxAttempts with
  | .error message => throw (.value message)
  | .ok policy =>
    let opened := openedWatch watchId query autoBook now expiresAt policy
    -- The constructors check what they are given.
    if opened.1.Valid ∧ opened.2.Valid then return opened else throw (.value "validation error")

/-- `_record_history`: a failure is only logged. -/
def recordHistory (ending : Ending) (call : HistoryCall) : Creating Unit := do
  if (← get).history.isSome then
    exceptException (await ending (Stores.record call)) (pure ())

/-- `_dispatch`: a failure is only logged. -/
def dispatch (ending : Ending) (p : Publication) : Creating Unit :=
  exceptException (await ending (Stores.publish p)) (pure ())

/-- The part of `create` that awaits. -/
def storeOpened (endings : CreateEndings) (watch : Watch) (runtime : WatchRuntime) (now : Time)
    (ownerClientId userId : Option String) : Creating Watch := do
  -- The account is persisted before a live watch or a recovery marker is exposed.
  if userId.isSome then
    if (← get).history.isNone then throw ownershipUnavailable
    exceptException (await endings.recording (Stores.record (creationCall watch ownerClientId userId)))
      (throw ownershipUnavailable)
  let result ← await endings.storing (Stores.createWithSchedule watch runtime)
  let stored := result.watch
  if userId.isNone then
    recordHistory endings.recording (creationCall stored ownerClientId none)
  dispatch endings.publishing ⟨stored.watchId, runtime.windowId, 0, now⟩
  return stored

/-- `create`, with the id that `uuid4` draws and the ends of its awaited steps. -/
def create (svc : WatchService) (maxAttempts : ℕ) (zone : Zone) (endings : CreateEndings) (now : Time)
    (watchId : String) (query : AvailabilityQuery) (autoBook : Bool)
    (ownerClientId userId : Option String) : Creating Watch :=
  match svc.openWatch maxAttempts zone now watchId query autoBook with
  | .error e => throw e
  | .ok (watch, runtime) => storeOpened endings watch runtime now ownerClientId userId

end WatchService

/-- Nothing is stored under a watch id: no key of any family, and no member of an index. -/
structure Redis.Vacant (db : Redis) (u : String) : Prop where
  watch : db.watches.get? u = none
  runtime : db.runtimes.get? u = none
  fence : db.fence.get? u = none
  claim : db.claims.get? u = none
  dispatchFence : db.dispatchFence.get? u = none
  dispatches : ∀ windowHash, db.dispatches.get? (u, windowHash) = none
  all : u ∉ db.all
  active : u ∉ db.active
  schedule : db.schedule.get? u = none
  terminal : db.terminal.get? u = none

namespace LiveStore

/-- The live store holds nothing for a watch id. -/
def Vacant (live : LiveStore) (u : String) : Prop :=
  match live with
  | .memory m => m.row u = Row.vacant
  | .redis db => db.Vacant u

/-- The live store holds a watch with its sidecar and its schedule marker. -/
def Holds (live : LiveStore) (watch : Watch) (runtime : WatchRuntime) : Prop :=
  match live with
  | .memory m =>
    m.watches.get? watch.watchId = some watch ∧ m.runtimes.get? watch.watchId = some runtime ∧
      ∃ marker, m.markers.get? watch.watchId = some marker ∧
        markerOf watch.watchId runtime = some marker
  | .redis db =>
    db.get watch.watchId = some watch ∧ db.getRuntime watch.watchId = some runtime ∧
      watch.watchId ∈ db.all ∧ watch.watchId ∈ db.active ∧
      ∃ score, db.schedule.get? watch.watchId = some score ∧ scheduledMs runtime = some score

end LiveStore

/-- The row of the projection. -/
def Stores.row (s : Stores) (u : String) : Option HistoryRow := s.history.bind (·.get? u)

namespace WatchService

/-- What `create` opens is a served creation of a watch that is due at once. -/
theorem openWatch_ok {svc : WatchService} {maxAttempts : ℕ} {zone : Zone} {now : Time}
    {watchId : String} {query : AvailabilityQuery} {autoBook : Bool} {watch : Watch}
    {runtime : WatchRuntime}
    (h : svc.openWatch maxAttempts zone now watchId query autoBook = .ok (watch, runtime)) :
    ∃ expiresAt policy, derive svc.schedule now expiresAt maxAttempts = .ok policy ∧
      (watch, runtime) = openedWatch watchId query autoBook now expiresAt policy ∧
      watch.Valid ∧ runtime.Valid := by
  unfold openWatch at h
  cases hdate : dateOrdinal query.date with
  | none => simp [hdate, throw, throwThe, MonadExceptOf.throw] at h
  | some date =>
    simp only [hdate, bind, Except.bind] at h
    split at h
    · simp [throw, throwThe, MonadExceptOf.throw] at h
    · split at h
      next => simp at h
      next expiresAt hexpiry =>
        split at h
        next => simp [throw, throwThe, MonadExceptOf.throw] at h
        next policy hpolicy =>
          split at h
          next hvalid =>
            have hopened := Except.ok.inj h
            rw [hopened] at hvalid
            exact ⟨_, policy, hpolicy, hopened.symm, hvalid⟩
          next => simp [throw, throwThe, MonadExceptOf.throw] at h

/-- The watch that `create` opens is active, has the id that was drawn, and is scheduled. -/
theorem openWatch_scheduled {svc : WatchService} {maxAttempts : ℕ} {zone : Zone} {now : Time}
    {watchId : String} {query : AvailabilityQuery} {autoBook : Bool} {watch : Watch}
    {runtime : WatchRuntime}
    (h : svc.openWatch maxAttempts zone now watchId query autoBook = .ok (watch, runtime)) :
    watch.watchId = watchId ∧ watch.status = .active ∧
      markerOf watchId runtime = some ⟨watchId, windowIdFor watchId 0, now⟩ ∧
      (Op.create watch runtime).Served := by
  obtain ⟨expiresAt, policy, -, hopened, -⟩ := openWatch_ok h
  obtain ⟨rfl, rfl⟩ := Prod.mk.inj hopened
  refine ⟨rfl, rfl, rfl, rfl, by simp, ?_⟩
  exact ⟨policy.requiredAttempts, policy.supportsDeadline, none, rfl⟩

end WatchService

namespace LiveStore

/-- A watch that is created under a vacant id is held. -/
theorem createWithSchedule_vacant {live : LiveStore} {watch : Watch} {runtime : WatchRuntime}
    {marker : ScheduleMarker} (h : live.Vacant watch.watchId)
    (hmarker : markerOf watch.watchId runtime = some marker) :
    (live.createWithSchedule watch runtime).1 = .created watch runtime ∧
      (live.createWithSchedule watch runtime).2.Holds watch runtime := by
  obtain ⟨windowId, due, hwindow, hdue⟩ :
      ∃ windowId due, runtime.windowId = some windowId ∧ runtime.scheduledFor = some due := by
    unfold markerOf at hmarker
    split at hmarker
    next windowId due hwindow hdue => exact ⟨windowId, due, hwindow, hdue⟩
    next => contradiction
  cases live with
  | memory m =>
    have hnone : m.watches.get? watch.watchId = none := congrArg Row.watch h
    simp only [LiveStore.createWithSchedule, Memory.createWithSchedule, hnone]
    refine ⟨rfl, ?_⟩
    simp [Holds, Memory.setMarker, markerOf, hwindow, hdue]
  | redis db =>
    have hnone : db.watches.get? watch.watchId = none := h.watch
    simp only [LiveStore.createWithSchedule, Redis.create, Redis.createWithSchedule, hnone]
    refine ⟨rfl, ?_⟩
    simp [Holds, scheduledMs, hwindow, hdue, Redis.get, Redis.getRuntime, Redis.setRuntime,
      Redis.setWatch]

/-- A held watch is read back. -/
theorem Holds.get_eq {live : LiveStore} {watch : Watch} {runtime : WatchRuntime}
    (h : live.Holds watch runtime) : live.get watch.watchId = some watch := by
  cases live with
  | memory m => exact h.1
  | redis db => exact h.1

end LiveStore

namespace WatchService

/-- The awaited part of the creation of an account watch leaves one of three things: both documents,
neither, or the row alone. -/
theorem storeOpened_account (endings : CreateEndings) (watch : Watch) (runtime : WatchRuntime)
    (now : Time) (ownerClientId : Option String) (userId : String) (s : Stores) :
    let call := creationCall watch ownerClientId (some userId)
    let out := storeOpened endings watch runtime now ownerClientId (some userId) s
    (s.history.isSome ∧ endings.recording = .returned ∧ endings.storing.applied = true ∧
      out.2.live = (s.live.createWithSchedule watch runtime).2 ∧
      out.2.history = s.history.map (·.record call)) ∨
    ((∃ e, out.1 = .error e) ∧ out.2.live = s.live ∧ out.2.history = s.history) ∨
    (s.history.isSome ∧ endings.recording.applied = true ∧
      ¬ (endings.recording = .returned ∧ endings.storing.applied = true) ∧
      (∃ e, out.1 = .error e) ∧ out.2.live = s.live ∧
      out.2.history = s.history.map (·.record call)) := by
  obtain ⟨live, history, published⟩ := s
  obtain ⟨recording, storing, publishing⟩ := endings
  cases history with
  | none => exact .inr (.inl ⟨⟨_, rfl⟩, rfl, rfl⟩)
  | some t =>
    cases recording with
    | raised applied =>
      cases applied with
      | false => exact .inr (.inl ⟨⟨_, rfl⟩, rfl, rfl⟩)
      | true => exact .inr (.inr ⟨rfl, rfl, by simp, ⟨_, rfl⟩, rfl, rfl⟩)
    | cancelled applied =>
      cases applied with
      | false => exact .inr (.inl ⟨⟨_, rfl⟩, rfl, rfl⟩)
      | true => exact .inr (.inr ⟨rfl, rfl, by simp, ⟨_, rfl⟩, rfl, rfl⟩)
    | returned =>
      cases storing with
      | raised applied =>
        cases applied with
        | false => exact .inr (.inr ⟨rfl, rfl, by simp [Ending.applied], ⟨_, rfl⟩, rfl, rfl⟩)
        | true => exact .inl ⟨rfl, rfl, rfl, rfl, rfl⟩
      | cancelled applied =>
        cases applied with
        | false => exact .inr (.inr ⟨rfl, rfl, by simp [Ending.applied], ⟨_, rfl⟩, rfl, rfl⟩)
        | true => exact .inl ⟨rfl, rfl, rfl, rfl, rfl⟩
      | returned =>
        rcases publishing with _ | ⟨_ | _⟩ | ⟨_ | _⟩ <;> exact .inl ⟨rfl, rfl, rfl, rfl, rfl⟩

/-- Creating an account watch leaves the live watch and its row, or nothing, or the row alone. The last
happens only when the row was recorded and the creation then stopped before `create_with_schedule`
took effect, and whenever the live watch is missing the caller gets an error. -/
theorem account_creation_ordered (svc : WatchService) (maxAttempts : ℕ) (zone : Zone)
    (endings : CreateEndings) (now : Time) (watchId : String) (query : AvailabilityQuery)
    (autoBook : Bool) (ownerClientId : Option String) (userId : String) (s : Stores)
    (hlive : s.live.Vacant watchId) (hrow : s.row watchId = none) :
    let out := svc.create maxAttempts zone endings now watchId query autoBook ownerClientId
      (some userId) s
    let opened := svc.openWatch maxAttempts zone now watchId query autoBook
    ((endings.recording = .returned ∧ endings.storing.applied = true) ∧
        ∃ watch runtime, opened = .ok (watch, runtime) ∧ watch.watchId = watchId ∧
          watch.status = .active ∧ out.2.live.Holds watch runtime ∧
          out.2.row watchId = some (creationCall watch ownerClientId (some userId)).excluded) ∨
      ((∃ e, out.1 = .error e) ∧ out.2.live.Vacant watchId ∧ out.2.row watchId = none) ∨
      (endings.recording.applied = true ∧
        ¬ (endings.recording = .returned ∧ endings.storing.applied = true) ∧
        (∃ e, out.1 = .error e) ∧ out.2.live.Vacant watchId ∧
        ∃ watch runtime, opened = .ok (watch, runtime) ∧ watch.watchId = watchId ∧
          watch.status = .active ∧
          out.2.row watchId = some (creationCall watch ownerClientId (some userId)).excluded) := by
  intro out opened
  cases hopened : opened with
  | error e =>
    -- Nothing has been awaited yet.
    have hout : out = (.error e, s) := by
      show svc.create _ _ _ _ _ _ _ _ _ s = _
      unfold create
      rw [show svc.openWatch maxAttempts zone now watchId query autoBook = .error e from hopened]
      rfl
    rw [hout]
    exact .inr (.inl ⟨⟨e, rfl⟩, hlive, hrow⟩)
  | ok documents =>
    obtain ⟨watch, runtime⟩ := documents
    obtain ⟨hid, hactive, hmarker, -⟩ := openWatch_scheduled hopened
    have hout : out = storeOpened endings watch runtime now ownerClientId (some userId) s := by
      show svc.create _ _ _ _ _ _ _ _ _ s = _
      unfold create
      rw [show svc.openWatch maxAttempts zone now watchId query autoBook = .ok (watch, runtime) from
        hopened]
    -- The first upsert of an id inserts the row that it proposes.
    have hrecorded (hhistory : s.history.isSome)
        (h : out.2.history =
          s.history.map (·.record (creationCall watch ownerClientId (some userId)))) :
        out.2.row watchId = some (creationCall watch ownerClientId (some userId)).excluded := by
      obtain ⟨t, ht⟩ := Option.isSome_iff_exists.mp hhistory
      have hnone : t.get? watchId = none := by simpa [Stores.row, ht] using hrow
      rw [Stores.row, h, ht]
      have hcall : (creationCall watch ownerClientId (some userId)).watch.watchId = watchId := hid
      show (t.record _).get? watchId = _
      rw [WatchHistory.get?_record, if_pos hcall, hnone]
      rfl
    have hkept (h : out.2.history = s.history) : out.2.row watchId = none := by
      rw [Stores.row, h]
      exact hrow
    have hcases := storeOpened_account endings watch runtime now ownerClientId userId s
    simp only [← hout] at hcases
    rcases hcases with ⟨hhistory, hrecording, hstoring, hboth, hh⟩ | ⟨herror, hsame, hh⟩ |
      ⟨hhistory, hrecording, hstop, herror, hsame, hh⟩
    · refine .inl ⟨⟨hrecording, hstoring⟩, watch, runtime, rfl, hid, hactive, ?_, hrecorded hhistory hh⟩
      rw [hboth]
      exact (LiveStore.createWithSchedule_vacant (by rw [hid]; exact hlive)
        (by rw [hid]; exact hmarker)).2
    · exact .inr (.inl ⟨herror, by rw [hsame]; exact hlive, hkept hh⟩)
    · exact .inr (.inr ⟨hrecording, hstop, herror, by rw [hsame]; exact hlive, watch, runtime, rfl, hid,
        hactive, hrecorded hhistory hh⟩)

end WatchService

/-- A table for two on the first day of 2030. -/
def AvailabilityQuery.sample : AvailabilityQuery :=
  ⟨"Trattoria", .restaurant, kwcMarket, 2, "2030-01-01", some "19:00", none, none, []⟩

/-- An empty in-memory store and an empty projection. -/
def Stores.fresh : Stores := ⟨.memory (.empty 86400000000), some .empty, []⟩

/-- The creation of a sample watch for an account, with given ends of its steps. -/
def sampleCreation (endings : CreateEndings) : Except CreateError Watch × Stores :=
  WatchService.sample.create 200 .utc endings 0 "watch_1" .sample false none (some "account") .fresh

/-- Every step of this creation returns, so both stores hold the watch. -/
theorem WatchService.account_creation_ordered_returned :
    let out := sampleCreation ⟨.returned, .returned, .returned⟩
    ∃ watch runtime, out.2.live.Holds watch runtime ∧
      out.2.row "watch_1" = some (creationCall watch none (some "account")).excluded := by
  have hordered := account_creation_ordered .sample 200 .utc ⟨.returned, .returned, .returned⟩ 0 "watch_1"
    .sample false none "account" .fresh (by rfl) (by rfl)
  have hreturned : (sampleCreation ⟨.returned, .returned, .returned⟩).1.toOption.isSome = true := by
    decide +kernel
  rcases hordered with ⟨-, watch, runtime, -, -, -, hholds, hrow⟩ | ⟨⟨e, he⟩, -⟩ | ⟨-, hstop, -⟩
  · exact ⟨watch, runtime, hholds, hrow⟩
  · rw [show (sampleCreation ⟨.returned, .returned, .returned⟩).1 = .error e from he] at hreturned
    contradiction
  · exact absurd ⟨rfl, rfl⟩ hstop

/-- When `create_with_schedule` fails after the account was recorded, the account lists an active watch
that the live store does not know. -/
theorem account_creation_torn :
    let out := (sampleCreation ⟨.returned, .raised false, .returned⟩).2
    AvailabilityQuery.sample.Valid ∧ Stores.fresh.live.Vacant "watch_1" ∧
      Stores.fresh.row "watch_1" = none ∧
      (out.history.map fun t => (t.listForUser "account" 1000).toOption.map
        (·.map fun watch => (watch.watchId, watch.status))) = some (some [("watch_1", .active)]) ∧
      ¬ ((∃ watch runtime, watch.watchId = "watch_1" ∧ out.live.Holds watch runtime) ∨
        (out.live.Vacant "watch_1" ∧ out.row "watch_1" = none)) := by
  intro out
  have hget : out.live.get "watch_1" = none := by decide +kernel
  have hrow : out.row "watch_1" ≠ none := by decide +kernel
  refine ⟨by decide +kernel, by rfl, by rfl, by decide +kernel, ?_⟩
  intro htorn
  rcases htorn with ⟨watch, runtime, hid, hholds⟩ | ⟨-, hnone⟩
  · have hsome := hholds.get_eq
    rw [hid, hget] at hsome
    contradiction
  · exact hrow hnone

end Dibs
