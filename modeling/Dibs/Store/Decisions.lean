import Dibs.Models.Watch
import Dibs.Lib.Sha1

/-!
# Decisions of the watch repositories

The typed results of `backend/db/repositories/watch_decisions.py`, which both stores return. A
result that carries data only under one status is an inductive type with the data under that
constructor, so a claim without the status `OWNED`, say, cannot be built.
-/

namespace Dibs

/-- `WindowClaim`: proof of ownership of one cadence window during one lease epoch. -/
structure WindowClaim where
  watch : Watch
  runtime : WatchRuntime
  ownerId : String
  windowId : String
  token : ℕ
  leaseExpiresAt : Time
deriving DecidableEq

/-- `CreateResult`. -/
inductive CreateResult
  | created (watch : Watch) (runtime : WatchRuntime)
  | alreadyExists (watch : Watch) (runtime : Option WatchRuntime)
deriving DecidableEq

/-- `ClaimResult`: why a claim attempt did or did not win the window. -/
inductive ClaimResult
  | owned (claim : WindowClaim)
  | busy
  | early
  | stale
  | terminal
  | unknown
deriving DecidableEq

/-- `BookingPermit`. -/
inductive BookingPermit
  | granted (permitId : String)
  | cancelled
  | fenced
deriving DecidableEq

/-- `CommitResult`. The Redis store leaves the watch of a `TERMINAL` result out. -/
inductive CommitResult
  | committed (watch : Watch) (eventId : Option String)
  | fenced
  | terminal (watch : Option Watch)
  | unknown
deriving DecidableEq

/-- `TransitionResult`: the outcome of a lifecycle transition that needs no claim. -/
inductive TransitionResult
  | applied (watch : Watch) (eventId : Option String) (revision : ℕ)
  | noop (watch : Watch)
  | notEligible (watch : Watch)
  | fenced
  | unknown
deriving DecidableEq

/-- `ScheduleMarker`: the repository's record of one logical due window. -/
structure ScheduleMarker where
  watchId : String
  windowId : String
  scheduledFor : Time
deriving DecidableEq

/-- `DispatchClaim`: proof of the right to publish one schedule marker for one generation. -/
structure DispatchClaim where
  watchId : String
  windowId : String
  scheduledFor : Time
  ownerId : String
  generation : ℕ
  leaseExpiresAt : Time
deriving DecidableEq

/-- `DispatchResult`. -/
inductive DispatchResult
  | claimed (claim : DispatchClaim)
  | busy
  | stale
deriving DecidableEq

/-- `CleanupResult`: what one bounded terminal-retention cleanup removed, and whether due entries
are left. -/
structure CleanupResult where
  removed : ℕ
  remaining : Bool
deriving DecidableEq

/-- `_TERMINAL_EVENT_STATUSES`: the terminal statuses that are announced. -/
def WatchStatus.hasEvent : WatchStatus → Bool
  | .found | .booked | .expired => true
  | .active | .cancelled => false

/-- `terminal_event_id`: the deterministic id of one terminal transition. -/
def terminalEventId (watchId : String) (status : WatchStatus) (revision : ℕ) : String :=
  sha1Hex (watchId ++ ":" ++ status.value ++ ":" ++ toString revision)

/-- `dispatch_window_hash`: the bounded key suffix of one window's dispatch lease. -/
def dispatchWindowHash (windowId : String) : String :=
  String.ofList ((sha1Hex windowId).toList.take 16)

end Dibs
