import Dibs.Service.Policy

/-!
# What a recovery pass does with a record

The decision of `RecoveryCoordinator._reconcile_one` in `backend/services/watch_recovery.py`, and the
sidecar that it repairs a record with, by `migrate_legacy_watch` of `backend/models/watch_runtime.py`
where there is none.
-/

namespace Dibs

/-- `RecoveryCandidate`: one member of the active index, as a pass finds it. -/
structure RecoveryCandidate where
  watchId : String
  watch : Option Watch
  runtime : Option WatchRuntime
  hasMarker : Bool
  hasLiveClaim : Bool
deriving DecidableEq

/-- What `_reconcile_one` does with a candidate. -/
inductive RecoveryAction
  /-- `prune_index_member`. -/
  | prune (fromAll : Bool)
  /-- `expire_if_eligible`, through the service or at once. -/
  | expire
  /-- A live poll claim is left to finish. -/
  | deferred
  /-- `synthesize_marker`. -/
  | synthesize (runtime : WatchRuntime)
  /-- The record has its marker. -/
  | preserved
deriving DecidableEq

/-- `_forward_required`. -/
def forwardRequired (watch : Watch) (earliestDelaySeconds : ℚ) (now : Time) : ℕ :=
  let earliest := max 1 (roundHalfEven (earliestDelaySeconds * 1000000))
  let remaining := max 0 (watch.expiresAt - now)
  (-(-remaining / earliest) + 1).toNat

/-- `migrate_legacy_watch`. -/
def migrateLegacyWatch (watch : Watch) (earliestDelaySeconds : ℚ) (now : Time) : WatchRuntime :=
  let required := watch.attempts + forwardRequired watch earliestDelaySeconds now
  let runtime : WatchRuntime := {
    revision := 0
    requiredAttempts := required
    supportsDeadline := decide (required ≤ watch.maxAttempts)
    consecutiveOutages := 0
    cadenceSequence := 0
    windowId := none
    scheduledFor := none
    phase := none
    cancelRequested := false
    terminalDeleteAt := none }
  if watch.status.isTerminal then runtime
  else { runtime with
    windowId := some (windowIdFor watch.watchId 0)
    scheduledFor := some (watch.nextCheckAt.getD now) }

/-- `_marker_runtime`: the sidecar that repairs a missing marker, due at the deadline at the latest. An
empty window id is falsy. -/
def markerRuntime (earliestDelaySeconds : ℚ) (watchId : String) (watch : Watch)
    (runtime : Option WatchRuntime) (now : Time) : Option WatchRuntime :=
  match runtime with
  | some runtime =>
    let window := (runtime.windowId.filter fun w => w ≠ "").getD
      (windowIdFor watchId runtime.cadenceSequence)
    let base := runtime.scheduledFor.getD (watch.nextCheckAt.getD now)
    some { runtime with windowId := some window, scheduledFor := some (min base watch.expiresAt) }
  | none =>
    let runtime := migrateLegacyWatch watch earliestDelaySeconds now
    match runtime.windowId, runtime.scheduledFor with
    | some _, some scheduledFor =>
      some { runtime with scheduledFor := some (min scheduledFor watch.expiresAt) }
    | _, _ => none

/-- `_reconcile_one`: what it does with a candidate, if anything. -/
def reconcileAction (earliestDelaySeconds : ℚ) (candidate : RecoveryCandidate) (now : Time) :
    Option RecoveryAction :=
  match candidate.watch with
  | none => some (.prune true)
  | some watch =>
    if watch.status.isTerminal then some (.prune false)
    else if watch.isExhausted now then some .expire
    else if candidate.hasLiveClaim then some .deferred
    else if !candidate.hasMarker then
      (markerRuntime earliestDelaySeconds candidate.watchId watch candidate.runtime now).map .synthesize
    else some .preserved

/-- The repair of an active record has a window and is due by the deadline. -/
theorem markerRuntime_spec (earliestDelaySeconds : ℚ) (watchId : String) {watch : Watch}
    (runtime : Option WatchRuntime) (now : Time) (hactive : watch.status = .active) :
    ∃ repaired window due, markerRuntime earliestDelaySeconds watchId watch runtime now = some repaired ∧
      repaired.windowId = some window ∧ repaired.scheduledFor = some due ∧ due ≤ watch.expiresAt := by
  cases runtime with
  | some runtime => exact ⟨_, _, _, rfl, rfl, rfl, min_le_right _ _⟩
  | none =>
    have hterminal : watch.status.isTerminal = false := by simpa using hactive
    unfold markerRuntime migrateLegacyWatch
    dsimp only
    rw [hterminal]
    exact ⟨_, _, _, rfl, rfl, rfl, min_le_right _ _⟩

end Dibs
