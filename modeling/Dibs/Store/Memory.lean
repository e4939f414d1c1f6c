import Dibs.Lib.Dict
import Dibs.Store.Decisions

/-!
# The in-memory watch repository

`InMemoryWatchRepository` of `backend/db/repositories/watches.py`. Each method runs as one critical
section under the store's lock, so it is a function of the store, the instant its clock reads and its
arguments, and returns its result with the store it leaves. The tables are the source's
dictionaries; `_events` is a set, kept as a list without repetition.
-/

namespace Dibs

/-- `_ClaimLease`: one process's expiring ownership of a cadence window. -/
structure ClaimLease where
  windowId : String
  ownerId : String
  token : ℕ
  expiresAt : Time
deriving DecidableEq

/-- `_DispatchLease`: one process's expiring right to publish a window to the queue. -/
structure DispatchLease where
  windowId : String
  ownerId : String
  generation : ℕ
  expiresAt : Time
deriving DecidableEq

/-- The tables of an `InMemoryWatchRepository`, and its retention. -/
structure Memory where
  retention : Duration
  watches : Dict String Watch
  runtimes : Dict String WatchRuntime
  fence : Dict String ℕ
  claims : Dict String ClaimLease
  dispatchFence : Dict String ℕ
  dispatchLeases : Dict String DispatchLease
  markers : Dict String ScheduleMarker
  terminalDeleteAt : Dict String Time
  events : List String
deriving DecidableEq

namespace Memory

/-- `InMemoryWatchRepository.__init__`: no watch is known. -/
def empty (retention : Duration) : Memory :=
  ⟨retention, .empty, .empty, .empty, .empty, .empty, .empty, .empty, .empty, []⟩

/-- `_set_marker`: the marker of a runtime with a window and a due time, or none. -/
def setMarker (m : Memory) (watchId : String) (runtime : WatchRuntime) : Memory :=
  match runtime.windowId, runtime.scheduledFor with
  | some windowId, some scheduledFor =>
    { m with markers := m.markers.insert watchId ⟨watchId, windowId, scheduledFor⟩ }
  | _, _ => { m with markers := m.markers.erase watchId }

/-- `_issue_event`: the event id of a terminal status that is announced, recorded in the set. -/
def issueEvent (m : Memory) (watchId : String) (status : WatchStatus) (revision : ℕ) :
    Option String × Memory :=
  if status.hasEvent then
    let eventId := terminalEventId watchId status revision
    (some eventId, { m with events := m.events.insert eventId })
  else (none, m)

/-- `_owns`: whether a claim still holds an unexpired, un-fenced lease. -/
def owns (m : Memory) (now : Time) (claim : WindowClaim) (current : WatchRuntime) : Bool :=
  current.revision = claim.runtime.revision &&
    match m.claims.get? claim.watch.watchId with
    | some held =>
      held.token = claim.token && held.ownerId = claim.ownerId && decide (now < held.expiresAt)
    | none => false

/-- `_apply_terminal`: store a terminal watch, raise the revision, and clear the schedule. -/
def applyTerminal (m : Memory) (watchId : String) (terminalWatch : Watch)
    (runtime : Option WatchRuntime) (now : Time) : ℕ × Memory :=
  let revision := match runtime with
    | some runtime => runtime.revision + 1
    | none => 0
  let deadline := now + m.retention
  let runtimes := match runtime with
    | some runtime =>
      m.runtimes.insert watchId { runtime with
        revision := revision
        windowId := none
        scheduledFor := none
        phase := none
        cancelRequested := false
        terminalDeleteAt := some deadline }
    | none => m.runtimes
  (revision, { m with
    watches := m.watches.insert watchId terminalWatch
    runtimes := runtimes
    claims := m.claims.erase watchId
    dispatchLeases := m.dispatchLeases.erase watchId
    markers := m.markers.erase watchId
    terminalDeleteAt := m.terminalDeleteAt.insert watchId deadline })

/-- `create_with_schedule`. -/
def createWithSchedule (m : Memory) (watch : Watch) (runtime : WatchRuntime) :
    CreateResult × Memory :=
  match m.watches.get? watch.watchId with
  | some stored => (.alreadyExists stored (m.runtimes.get? watch.watchId), m)
  | none =>
    (.created watch runtime,
      setMarker { m with
        watches := m.watches.insert watch.watchId watch
        runtimes := m.runtimes.insert watch.watchId runtime
        fence := m.fence.insert watch.watchId 0 } watch.watchId runtime)

/-- `claim_window`: one expiring, fenced claim on a due cadence window. -/
def claimWindow (m : Memory) (now : Time) (watchId windowId ownerId : String) (lease : Duration)
    (ignoreSchedule : Bool) : ClaimResult × Memory :=
  match m.watches.get? watchId, m.runtimes.get? watchId with
  | some watch, some runtime =>
    if watch.status.isTerminal then (.terminal, m)
    else if runtime.windowId ≠ some windowId then (.stale, m)
    else if !ignoreSchedule && runtime.scheduledFor.any (fun due => decide (now < due)) then
      (.early, m)
    else if (m.claims.get? watchId).any fun held =>
        held.windowId = windowId && decide (now < held.expiresAt) then (.busy, m)
    else
      let token := (m.fence.get? watchId).getD 0 + 1
      let leaseExpires := now + lease
      (.owned ⟨watch, runtime, ownerId, windowId, token, leaseExpires⟩,
        { m with
          fence := m.fence.insert watchId token
          claims := m.claims.insert watchId ⟨windowId, ownerId, token, leaseExpires⟩ })
  | _, _ => (.unknown, m)

/-- `begin_booking`: linearize the point before an irreversible booking call. -/
def beginBooking (m : Memory) (now : Time) (claim : WindowClaim) : BookingPermit × Memory :=
  let watchId := claim.watch.watchId
  match m.watches.get? watchId, m.runtimes.get? watchId with
  | some watch, some runtime =>
    if watch.status.isTerminal then (.fenced, m)
    else if !m.owns now claim runtime then (.fenced, m)
    else if runtime.cancelRequested then (.cancelled, m)
    else
      (.granted (watchId ++ ":" ++ toString claim.token),
        { m with runtimes := m.runtimes.insert watchId { runtime with phase := some .booking } })
  | _, _ => (.fenced, m)

/-- `commit_window`: apply a claimed window's result if the claim still owns it. -/
def commitWindow (m : Memory) (now : Time) (claim : WindowClaim) (newWatch : Watch)
    (newRuntime : WatchRuntime) : CommitResult × Memory :=
  let watchId := claim.watch.watchId
  match m.watches.get? watchId, m.runtimes.get? watchId with
  | some watch, some runtime =>
    if watch.status.isTerminal then (.terminal (some watch), m)
    else if !m.owns now claim runtime then (.fenced, m)
    else
      let revision := runtime.revision + 1
      let stored := { newRuntime with revision := revision, phase := none }
      if newWatch.status.isTerminal then
        let deadline := now + m.retention
        let stored := { stored with terminalDeleteAt := some deadline }
        let issued := issueEvent { m with
          watches := m.watches.insert watchId newWatch
          runtimes := m.runtimes.insert watchId stored
          claims := m.claims.erase watchId
          markers := m.markers.erase watchId
          dispatchLeases := m.dispatchLeases.erase watchId
          terminalDeleteAt := m.terminalDeleteAt.insert watchId deadline }
          watchId newWatch.status revision
        (.committed newWatch issued.1, issued.2)
      else
        (.committed newWatch none,
          setMarker { m with
            watches := m.watches.insert watchId newWatch
            runtimes := m.runtimes.insert watchId stored
            claims := m.claims.erase watchId } watchId stored)
  | _, _ => (.unknown, m)

/-- `cancel_if_active`: cancel an active watch, or record the intent while a booking is in
flight. -/
def cancelIfActive (m : Memory) (now : Time) (watchId : String) : TransitionResult × Memory :=
  match m.watches.get? watchId with
  | none => (.unknown, m)
  | some watch =>
    if watch.status.isTerminal then (.noop watch, m)
    else
      let runtime := m.runtimes.get? watchId
      match runtime.filter fun runtime => runtime.phase = some .booking with
      | some runtime =>
        (.notEligible watch,
          { m with runtimes := m.runtimes.insert watchId { runtime with cancelRequested := true } })
      | none =>
        let cancelled := { watch with
          status := .cancelled, nextCheckAt := none, updatedAt := now }
        let applied := applyTerminal m watchId cancelled runtime now
        (.applied cancelled none applied.1, applied.2)

/-- `expire_if_eligible`: expire an exhausted or overdue watch conditionally. -/
def expireIfEligible (m : Memory) (now : Time) (watchId : String)
    (expectedRevision : Option ℕ) (force : Bool) : TransitionResult × Memory :=
  match m.watches.get? watchId with
  | none => (.unknown, m)
  | some watch =>
    if watch.status.isTerminal then (.noop watch, m)
    else
      let runtime := m.runtimes.get? watchId
      if expectedRevision.any fun expected =>
          runtime.any fun runtime => runtime.revision ≠ expected then (.fenced, m)
      else if !force && !watch.isExhausted now then (.notEligible watch, m)
      else
        let expired := { watch with status := .expired, nextCheckAt := none, updatedAt := now }
        let applied := applyTerminal m watchId expired runtime now
        let issued := issueEvent applied.2 watchId .expired applied.1
        (.applied expired issued.1 applied.1, issued.2)

/-- `release_claim`: release a still-owned, uncommitted claim. -/
def releaseClaim (m : Memory) (claim : WindowClaim) : Bool × Memory :=
  if (m.claims.get? claim.watch.watchId).any fun held =>
      held.token = claim.token && held.ownerId = claim.ownerId then
    (true, { m with claims := m.claims.erase claim.watch.watchId })
  else (false, m)

/-- `claim_dispatch`: the single-flight lease to publish one marker. -/
def claimDispatch (m : Memory) (now : Time) (marker : ScheduleMarker) (ownerId : String)
    (lease : Duration) : DispatchResult × Memory :=
  match m.watches.get? marker.watchId, m.markers.get? marker.watchId with
  | some watch, some current =>
    if watch.status.isTerminal || current.windowId ≠ marker.windowId then (.stale, m)
    else if (m.dispatchLeases.get? marker.watchId).any fun held =>
        held.windowId = marker.windowId && decide (now < held.expiresAt) then (.busy, m)
    else
      let generation := (m.dispatchFence.get? marker.watchId).getD 0 + 1
      let expires := now + lease
      (.claimed ⟨marker.watchId, marker.windowId, current.scheduledFor, ownerId, generation,
          expires⟩,
        { m with
          dispatchFence := m.dispatchFence.insert marker.watchId generation
          dispatchLeases := m.dispatchLeases.insert marker.watchId
            ⟨marker.windowId, ownerId, generation, expires⟩ })
  | _, _ => (.stale, m)

/-- `_owns_dispatch`. -/
def ownsDispatch (claim : DispatchClaim) (held : DispatchLease) : Bool :=
  held.generation = claim.generation && held.ownerId = claim.ownerId

/-- `mark_dispatched`: keep the lease until the grace time. -/
def markDispatched (m : Memory) (claim : DispatchClaim) (redispatchAfter : Time) : Bool × Memory :=
  match (m.dispatchLeases.get? claim.watchId).filter (ownsDispatch claim) with
  | some held =>
    let held := { held with expiresAt := redispatchAfter }
    (true, { m with dispatchLeases := m.dispatchLeases.insert claim.watchId held })
  | none => (false, m)

/-- `release_dispatch`: give a still-owned dispatch lease up. -/
def releaseDispatch (m : Memory) (claim : DispatchClaim) : Bool × Memory :=
  if (m.dispatchLeases.get? claim.watchId).any (ownsDispatch claim) then
    (true, { m with dispatchLeases := m.dispatchLeases.erase claim.watchId })
  else (false, m)

/-- `synthesize_marker`: repair an active record that lost its schedule marker. -/
def synthesizeMarker (m : Memory) (now : Time) (watchId : String) (runtime : WatchRuntime) :
    Bool × Memory :=
  match m.watches.get? watchId with
  | none => (false, m)
  | some watch =>
    if watch.status.isTerminal then (false, m)
    else if (m.claims.get? watchId).any fun held => decide (now < held.expiresAt) then (false, m)
    else if m.markers.contains watchId then (false, m)
    else
      let fence := match m.fence.get? watchId with
        | some _ => m.fence
        | none => m.fence.insert watchId 0
      let m := setMarker { m with
        runtimes := m.runtimes.insert watchId runtime, fence := fence } watchId runtime
      (m.markers.contains watchId, m)

/-- The removal of one finished watch from every table, in `cleanup_due` and `delete`. -/
def remove (m : Memory) (watchId : String) : Memory :=
  { m with
    watches := m.watches.erase watchId
    runtimes := m.runtimes.erase watchId
    fence := m.fence.erase watchId
    claims := m.claims.erase watchId
    dispatchFence := m.dispatchFence.erase watchId
    dispatchLeases := m.dispatchLeases.erase watchId
    markers := m.markers.erase watchId
    terminalDeleteAt := m.terminalDeleteAt.erase watchId }

/-- One iteration of the loop of `cleanup_due`: a record that is gone or no longer terminal only
loses its cleanup entry. -/
def cleanupOne (acc : ℕ × Memory) (watchId : String) : ℕ × Memory :=
  match acc.2.watches.get? watchId with
  | some watch =>
    if watch.status.isTerminal then (acc.1 + 1, acc.2.remove watchId)
    else (acc.1, { acc.2 with terminalDeleteAt := acc.2.terminalDeleteAt.erase watchId })
  | none => (acc.1, { acc.2 with terminalDeleteAt := acc.2.terminalDeleteAt.erase watchId })

/-- `cleanup_due`: remove a bounded batch of terminal watches past their retention, oldest deadline
first. -/
def cleanupDue (m : Memory) (now : Time) (batchSize : ℕ) : CleanupResult × Memory :=
  let due := (m.terminalDeleteAt.entries.filter fun e => decide (e.2 ≤ now)).mergeSort
    fun a b => decide (a.2 ≤ b.2)
  let cleaned := ((due.map Prod.fst).take batchSize).foldl cleanupOne (0, m)
  (⟨cleaned.1, cleaned.2.terminalDeleteAt.entries.any fun e => decide (e.2 ≤ now)⟩, cleaned.2)

end Memory

end Dibs
