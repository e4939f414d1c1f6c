import Mathlib.Tactic.Linarith
import Mathlib.Tactic.Positivity
import Dibs.Service.Plan

/-!
# The attempt budget of a watch

The policy of `backend/services/watch_policy.py`, the poll settings of `backend/config.py` that it is
derived under, and the watch that `WatchService.create` builds with it. `derive_budget` says what the
budget is for: when it is granted in full, one check at every earliest possible instant does not use
it up before the deadline.
-/

namespace Dibs

/-- `WatchSettings`, as far as polling goes, with the bounds that `from_environment` checks. -/
structure WatchSettings where
  pollIntervalSeconds : ℕ
  pollJitterSeconds : ℕ
  maxPollAttempts : ℕ
  providerBackoffMaxSeconds : ℕ
  /-- `WATCH_POLL_INTERVAL_SECONDS` must be between 15 and 3600. -/
  interval_bounds : 15 ≤ pollIntervalSeconds ∧ pollIntervalSeconds ≤ 3600
  /-- `WATCH_POLL_JITTER_SECONDS` must be smaller than `WATCH_POLL_INTERVAL_SECONDS`. -/
  jitter_lt : pollJitterSeconds < pollIntervalSeconds
  /-- `WATCH_MAX_POLL_ATTEMPTS` must be between 1 and 1000000. -/
  attempts_bounds : 1 ≤ maxPollAttempts ∧ maxPollAttempts ≤ 1000000
  /-- `WATCH_PROVIDER_BACKOFF_MAX_SECONDS` must be between 1 and 86400. -/
  backoff_bounds : 1 ≤ providerBackoffMaxSeconds ∧ providerBackoffMaxSeconds ≤ 86400
  /-- `WATCH_PROVIDER_BACKOFF_MAX_SECONDS` must be at least `WATCH_POLL_INTERVAL_SECONDS`. -/
  interval_le_backoff : pollIntervalSeconds ≤ providerBackoffMaxSeconds

/-- The schedule that the application builds from its settings. -/
def WatchSettings.schedule (settings : WatchSettings) : PollSchedule where
  intervalSeconds := settings.pollIntervalSeconds
  jitterSeconds := settings.pollJitterSeconds
  interval_pos := by exact_mod_cast lt_of_lt_of_le (by norm_num) settings.interval_bounds.1
  jitter_nonneg := by positivity
  jitter_lt := by exact_mod_cast settings.jitter_lt

/-- The service that the application builds from its settings. -/
def WatchSettings.service (settings : WatchSettings) : WatchService :=
  ⟨settings.schedule, settings.providerBackoffMaxSeconds⟩

/-- `PollSchedule.earliest_delay`. -/
def PollSchedule.earliestDelay (schedule : PollSchedule) : ℚ :=
  max minDelaySeconds (schedule.intervalSeconds - schedule.jitterSeconds)

/-- `PolicyLimit`: what bounds a watch's monitoring. -/
inductive PolicyLimit
  | calendar
  | safetyCeiling
deriving DecidableEq

/-- `AvailabilityPolicy`: the derived attempt budget and whether it reaches the deadline. -/
structure AvailabilityPolicy where
  requiredAttempts : ℕ
  effectiveAttempts : ℕ
  supportsDeadline : Bool
  limitingReason : PolicyLimit
deriving DecidableEq

/-- `_earliest_delay_microseconds`. -/
def PollSchedule.earliestDelayMicroseconds (schedule : PollSchedule) : ℤ :=
  max 1 (roundHalfEven (schedule.earliestDelay * 1000000))

/-- `AvailabilityPolicyFactory.derive`: one check at once and one for every earliest delay that is
left until the deadline, as far as the ceiling allows. Instants are timezone-aware here, so the first
check of the source has no counterpart. -/
def derive (schedule : PollSchedule) (now expiresAt : Time) (safetyCeiling : ℕ) :
    Except String AvailabilityPolicy :=
  if safetyCeiling < 1 then .error "safety_ceiling must be a positive integer"
  else
    let remaining := max 0 (expiresAt - now)
    let intervalCount := -(-remaining / schedule.earliestDelayMicroseconds)
    let required := (intervalCount + 1).toNat
    let effective := min required safetyCeiling
    let supportsDeadline := effective == required
    .ok ⟨required, effective, supportsDeadline,
      if supportsDeadline then .calendar else .safetyCeiling⟩

/-- The watch and the sidecar that `WatchService.create` stores under a policy. -/
def openedWatch (watchId : String) (query : AvailabilityQuery) (autoBook : Bool)
    (now expiresAt : Time) (policy : AvailabilityPolicy) : Watch × WatchRuntime :=
  let watch : Watch := {
    watchId := watchId
    status := .active
    query := query
    autoBook := autoBook
    createdAt := now
    updatedAt := now
    expiresAt := expiresAt
    attempts := 0
    maxAttempts := policy.effectiveAttempts
    lastCheckedAt := none
    nextCheckAt := some now
    foundSlots := []
    booking := none
    lastError := none }
  (watch, initialRuntime watch policy.requiredAttempts policy.supportsDeadline none)

/-- The seconds of a duration make the duration again. -/
theorem timedelta_totalSeconds (d : Duration) : timedelta (totalSeconds d) = d := by
  have hq : totalSeconds d * 1000000 = (d : ℤ) := by
    unfold totalSeconds
    ring
  rw [timedelta, hq, roundHalfEven_intCast]

/-- The earliest delay is a positive number of microseconds. -/
theorem PollSchedule.earliestDelayMicroseconds_pos (schedule : PollSchedule) :
    0 < schedule.earliestDelayMicroseconds :=
  lt_of_lt_of_le one_pos (le_max_left ..)

/-- No delay of the schedule is shorter than the earliest delay. -/
theorem PollSchedule.earliestDelay_le (schedule : PollSchedule) {offset : ℚ}
    (h : schedule.Draws offset) : schedule.earliestDelay ≤ schedule.nextDelay offset :=
  max_le_max le_rfl (by linarith [h.1])

/-- The earliest delay in whole seconds. -/
theorem WatchSettings.earliestDelay_eq (settings : WatchSettings) :
    settings.schedule.earliestDelay = ((settings.pollIntervalSeconds - settings.pollJitterSeconds : ℕ) : ℚ) := by
  have hlt := settings.jitter_lt
  have hdiff : settings.schedule.intervalSeconds - settings.schedule.jitterSeconds =
      ((settings.pollIntervalSeconds - settings.pollJitterSeconds : ℕ) : ℚ) := by
    rw [Nat.cast_sub hlt.le]
    rfl
  have hone : minDelaySeconds ≤ ((settings.pollIntervalSeconds - settings.pollJitterSeconds : ℕ) : ℚ) := by
    unfold minDelaySeconds
    exact_mod_cast Nat.sub_pos_of_lt hlt
  rw [PollSchedule.earliestDelay, hdiff, max_eq_right hone]

/-- With whole seconds the earliest delay is a whole number of microseconds. -/
theorem WatchSettings.earliestDelayMicroseconds_eq (settings : WatchSettings) :
    (settings.schedule.earliestDelayMicroseconds : ℚ) = settings.schedule.earliestDelay * 1000000 := by
  have hpos := Nat.sub_pos_of_lt settings.jitter_lt
  rw [PollSchedule.earliestDelayMicroseconds, settings.earliestDelay_eq]
  generalize settings.pollIntervalSeconds - settings.pollJitterSeconds = n at hpos ⊢
  have hmicro : (n : ℚ) * 1000000 = ((n * 1000000 : ℤ) : ℚ) := by
    push_cast
    ring
  rw [hmicro, roundHalfEven_intCast, max_eq_right (by omega)]

/-- A budget that is granted in full reaches the deadline. -/
theorem derive_budget {schedule : PollSchedule} {now expiresAt : Time} {safetyCeiling : ℕ}
    {policy : AvailabilityPolicy} (h : derive schedule now expiresAt safetyCeiling = .ok policy)
    (hsupports : policy.supportsDeadline = true) :
    0 < policy.effectiveAttempts ∧
      expiresAt ≤ now + (policy.effectiveAttempts - 1) * schedule.earliestDelayMicroseconds := by
  have hpos := schedule.earliestDelayMicroseconds_pos
  generalize hearliest : schedule.earliestDelayMicroseconds = earliest at hpos ⊢
  unfold derive at h
  rw [hearliest] at h
  split_ifs at h with hceiling
  obtain rfl := Except.ok.inj h
  -- The number of intervals, rounded up, covers what is left.
  generalize hremaining : max 0 (expiresAt - now) = remaining at hsupports ⊢
  have hnonneg : (0 : ℤ) ≤ remaining := hremaining ▸ le_max_left ..
  have hleft : (expiresAt - now : ℤ) ≤ remaining := hremaining ▸ le_max_right ..
  generalize hcount : -(-remaining / earliest) = count at hsupports ⊢
  have hcover : remaining ≤ count * earliest := by
    have hfloor := Int.ediv_mul_le (-remaining) hpos.ne'
    rw [← hcount]
    linarith
  have hcount_nonneg : (0 : ℤ) ≤ count := by
    by_contra hneg
    nlinarith
  have hrequired : ((count + 1).toNat : ℤ) = count + 1 := Int.toNat_of_nonneg (by omega)
  have hfull : min (count + 1).toNat safetyCeiling = (count + 1).toNat := by simpa using hsupports
  dsimp only
  rw [hfull]
  refine ⟨by omega, ?_⟩
  rw [hrequired]
  linarith

end Dibs
