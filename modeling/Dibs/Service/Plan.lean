import Dibs.Store.Decisions
import Dibs.Workers.Scheduler

/-!
# The transitions the watch service commits

The pure part of `WatchService` in `backend/services/watch_service.py`: what one availability check
does to the watch and the sidecar its claim was issued on. A `Plan` is what the service then hands to
`commit_window`, with what it does once the commit is applied.
-/

namespace Dibs

/-- The configuration of a `WatchService`. -/
structure WatchService where
  schedule : PollSchedule
  /-- `backoff_max_seconds` as it was given. -/
  backoffSeconds : ℚ

/-- `_backoff_max_seconds`: the configured maximum, but at least the interval. -/
def WatchService.backoffMaxSeconds (svc : WatchService) : ℚ :=
  max svc.backoffSeconds svc.schedule.intervalSeconds

/-- Checks every minute, give or take ten seconds, with a backoff of at most fifteen minutes. -/
def WatchService.sample : WatchService :=
  ⟨⟨60, 10, by norm_num, by norm_num, by norm_num⟩, 900⟩

/-- What the service does after a commit: publish the successor window, or announce the end. -/
inductive Followup
  | dispatch (delaySeconds : ℚ) (dueAt : Time)
  | announce
deriving DecidableEq

/-- A transition to commit. -/
structure Plan where
  watch : Watch
  runtime : WatchRuntime
  followup : Followup
deriving DecidableEq

/-- `MAX_RECORDED_SLOTS`: the slots stored on a watch. -/
def maxRecordedSlots : ℕ := 16

/-- `_found_watch`. -/
def foundWatch (watch : Watch) (slots : List AvailabilitySlot) (now : Time) : Watch :=
  { watch with
    status := .found
    foundSlots := slots.take maxRecordedSlots
    nextCheckAt := none
    updatedAt := now
    attempts := min (watch.attempts + 1) watch.maxAttempts
    lastCheckedAt := some now
    lastError := none }

/-- `_booked_watch`. -/
def bookedWatch (watch : Watch) (now : Time) (confirmation : BookingConfirmation)
    (attempted : Bool) : Watch :=
  let booked := { watch with
    status := .booked
    foundSlots := [confirmation.slot]
    booking := some confirmation
    nextCheckAt := none
    updatedAt := now }
  if attempted then
    { booked with
      attempts := min (watch.attempts + 1) watch.maxAttempts
      lastCheckedAt := some now
      lastError := none }
  else booked

/-- `_cancelled_watch`. -/
def cancelledWatch (watch : Watch) (now : Time) : Watch :=
  { watch with status := .cancelled, nextCheckAt := none, updatedAt := now }

/-- `_expired_watch`. -/
def expiredWatch (watch : Watch) (now : Time) (attempted : Bool) : Watch :=
  let expired := { watch with status := .expired, nextCheckAt := none, updatedAt := now }
  if attempted then { expired with lastCheckedAt := some now } else expired

/-- The sidecar of a terminal commit. -/
def terminalRuntime (runtime : WatchRuntime) : WatchRuntime :=
  { runtime with
    windowId := none
    scheduledFor := none
    phase := none
    cancelRequested := false
    consecutiveOutages := 0 }

/-- The sidecar of a commit that schedules the next window. -/
def successorRuntime (watchId : String) (runtime : WatchRuntime) (scheduled : Time)
    (outages : ℕ) : WatchRuntime :=
  { runtime with
    cadenceSequence := runtime.cadenceSequence + 1
    windowId := some (windowIdFor watchId (runtime.cadenceSequence + 1))
    scheduledFor := some scheduled
    phase := none
    cancelRequested := false
    consecutiveOutages := outages }

/-- `_commit_terminal`. -/
def commitTerminal (claim : WindowClaim) (newWatch : Watch) : Plan :=
  ⟨newWatch, terminalRuntime claim.runtime, .announce⟩

/-- `_commit_miss`: one availability miss and at most one successor. -/
def commitMiss (svc : WatchService) (claim : WindowClaim) (now : Time) (error : Option String)
    (offset : ℚ) : Plan :=
  let watch := claim.watch
  let attempts := min (watch.attempts + 1) watch.maxAttempts
  let attempted := { watch with
    attempts := attempts
    lastCheckedAt := some now
    updatedAt := now
    lastError := error }
  let delay := min (svc.schedule.nextDelay offset) (totalSeconds (watch.expiresAt - now))
  if watch.maxAttempts ≤ attempts ∨ delay < minDelaySeconds then
    commitTerminal claim (expiredWatch attempted now true)
  else
    let scheduled := now + timedelta delay
    ⟨{ attempted with nextCheckAt := some scheduled },
      successorRuntime watch.watchId claim.runtime scheduled 0, .dispatch delay scheduled⟩

/-- The loop of `_exponent_limit`, for at most `fuel` rounds. -/
def exponentLimitFrom (maximum : ℚ) : ℕ → ℚ → ℕ → ℕ
  | 0, _, limit => limit
  | fuel + 1, value, limit =>
    if value < maximum then exponentLimitFrom maximum fuel (value * 2) (limit + 1) else limit

/-- `_exponent_limit`. The loop doubles `interval` up to `maximum`, so it takes fewer rounds than
`interval` goes into `maximum`. -/
def exponentLimit (interval maximum : ℚ) : ℕ :=
  exponentLimitFrom maximum ⌈maximum / interval⌉₊ interval 0

/-- The loop stops at the first doubling that reaches the maximum, when the rounds suffice. -/
theorem exponentLimitFrom_spec (maximum : ℚ) (fuel : ℕ) (value : ℚ) (limit : ℕ)
    (hfuel : maximum ≤ value * 2 ^ fuel) :
    ∃ k, exponentLimitFrom maximum fuel value limit = limit + k ∧ maximum ≤ value * 2 ^ k ∧
      ∀ j < k, value * 2 ^ j < maximum := by
  induction fuel generalizing value limit with
  | zero => exact ⟨0, rfl, hfuel, by simp⟩
  | succ fuel ih =>
    by_cases h : value < maximum
    · obtain ⟨k, hk, hle, hlt⟩ := ih (value * 2) (limit + 1) (by rw [mul_assoc, ← pow_succ']; exact hfuel)
      refine ⟨k + 1, ?_, ?_, fun j hj => ?_⟩
      · rw [exponentLimitFrom, if_pos h, hk]
        omega
      · rw [pow_succ', ← mul_assoc]
        exact hle
      · cases j with
        | zero => simpa using h
        | succ j =>
          rw [pow_succ', ← mul_assoc]
          exact hlt j (by omega)
    · exact ⟨0, by rw [exponentLimitFrom, if_neg h]; rfl, by simpa using h, by simp⟩

/-- `_exponent_limit` is the smallest number of doublings that takes the interval to the maximum. -/
theorem exponentLimit_spec {interval maximum : ℚ} (h : 0 < interval) :
    maximum ≤ interval * 2 ^ exponentLimit interval maximum ∧
      ∀ j < exponentLimit interval maximum, interval * 2 ^ j < maximum := by
  have hfuel : maximum ≤ interval * 2 ^ ⌈maximum / interval⌉₊ := by
    have hceil : maximum / interval ≤ ⌈maximum / interval⌉₊ := Nat.le_ceil _
    have htwo : (⌈maximum / interval⌉₊ : ℚ) ≤ 2 ^ ⌈maximum / interval⌉₊ := by
      exact_mod_cast Nat.lt_two_pow_self.le
    calc maximum = interval * (maximum / interval) := by field_simp
      _ ≤ interval * 2 ^ ⌈maximum / interval⌉₊ := by gcongr; exact hceil.trans htwo
  obtain ⟨k, hk, hle, hlt⟩ := exponentLimitFrom_spec maximum _ interval 0 hfuel
  rw [Nat.zero_add] at hk
  rw [exponentLimit, hk]
  exact ⟨hle, hlt⟩

/-- `_saturating_outages`: the stored outage counter, capped one past the exponent limit. -/
def saturatingOutages (svc : WatchService) (value : ℕ) : ℕ :=
  min value (exponentLimit svc.schedule.intervalSeconds svc.backoffMaxSeconds + 1)

/-- `_outage_delay`: the capped exponential, jittered, floored and clipped to the deadline; none when
less than the floor is left. -/
def outageDelay (svc : WatchService) (outages : ℕ) (now : Time) (watch : Watch) (offset : ℚ) :
    Option ℚ :=
  let interval := svc.schedule.intervalSeconds
  let maximum := svc.backoffMaxSeconds
  let base := if exponentLimit interval maximum ≤ outages - 1 then maximum
    else interval * 2 ^ (outages - 1)
  let jittered := min (max (base + offset) minDelaySeconds) maximum
  let remaining := totalSeconds (watch.expiresAt - now)
  if remaining < minDelaySeconds then none else some (min jittered remaining)

/-- `_commit_outage`: a provider outage consumes no attempt and backs off. -/
def commitOutage (svc : WatchService) (claim : WindowClaim) (now : Time) (error : String)
    (offset : ℚ) : Plan :=
  let watch := claim.watch
  let outages := saturatingOutages svc (claim.runtime.consecutiveOutages + 1)
  match outageDelay svc outages now watch offset with
  | none => commitTerminal claim (expiredWatch watch now false)
  | some delay =>
    let scheduled := now + timedelta delay
    ⟨{ watch with
        lastCheckedAt := some now
        updatedAt := now
        lastError := some error
        nextCheckAt := some scheduled },
      successorRuntime watch.watchId claim.runtime scheduled outages, .dispatch delay scheduled⟩

/-- What one availability check comes to: the members of `_Sequence` that end in a commit, an outage
of the provider, and a watch whose time or attempts were over before the check. -/
inductive Verdict
  | exhausted
  | outage (error : String)
  | miss
  | found (slots : List AvailabilitySlot)
  | booked (confirmation : BookingConfirmation) (attempted : Bool)
  | cancelled
deriving DecidableEq

/-- The transition that `_run_claimed` commits for a verdict. -/
def Verdict.plan (svc : WatchService) (claim : WindowClaim) (now : Time) (offset : ℚ) :
    Verdict → Plan
  | .exhausted => commitTerminal claim (expiredWatch claim.watch now false)
  | .outage error => commitOutage svc claim now error offset
  | .miss => commitMiss svc claim now none offset
  | .found slots => commitTerminal claim (foundWatch claim.watch slots now)
  | .booked confirmation attempted =>
    commitTerminal claim (bookedWatch claim.watch now confirmation attempted)
  | .cancelled => commitTerminal claim (cancelledWatch claim.watch now)

/-- A plan that the service builds from a claim. -/
def Built (svc : WatchService) (claim : WindowClaim) (plan : Plan) : Prop :=
  ∃ verdict now offset, plan = Verdict.plan svc claim now offset verdict

/-- A plan schedules the next window of the claim's watch. -/
structure Plan.Succeeds (plan : Plan) (claim : WindowClaim) : Prop where
  /-- The watch keeps its id. -/
  watchId : plan.watch.watchId = claim.watch.watchId
  /-- The watch keeps its status. -/
  status : plan.watch.status = claim.watch.status
  /-- The sidecar is on the next cadence window, at the instant the document shows. -/
  scheduled : ∃ due outages, plan.watch.nextCheckAt = some due ∧
    plan.runtime = successorRuntime claim.watch.watchId claim.runtime due outages
  /-- The next window is published. -/
  followup : plan.followup ≠ .announce

/-- A plan finishes the claim's watch. -/
structure Plan.Finishes (plan : Plan) (claim : WindowClaim) : Prop where
  /-- The watch keeps its id. -/
  watchId : plan.watch.watchId = claim.watch.watchId
  /-- The watch is terminal. -/
  status : plan.watch.status ≠ .active
  /-- The sidecar has no window left. -/
  runtime : plan.runtime = terminalRuntime claim.runtime
  /-- The end is announced. -/
  followup : plan.followup = .announce

@[simp]
theorem expiredWatch_status (watch : Watch) (now : Time) (attempted : Bool) :
    (expiredWatch watch now attempted).status = .expired := by
  cases attempted <;> rfl

@[simp]
theorem expiredWatch_watchId (watch : Watch) (now : Time) (attempted : Bool) :
    (expiredWatch watch now attempted).watchId = watch.watchId := by
  cases attempted <;> rfl

@[simp]
theorem bookedWatch_status (watch : Watch) (now : Time) (confirmation : BookingConfirmation)
    (attempted : Bool) : (bookedWatch watch now confirmation attempted).status = .booked := by
  cases attempted <;> rfl

@[simp]
theorem bookedWatch_watchId (watch : Watch) (now : Time) (confirmation : BookingConfirmation)
    (attempted : Bool) :
    (bookedWatch watch now confirmation attempted).watchId = watch.watchId := by
  cases attempted <;> rfl

/-- A miss schedules the next window or expires the watch. -/
theorem commitMiss_cases (svc : WatchService) (claim : WindowClaim) (now : Time)
    (error : Option String) (offset : ℚ) :
    (commitMiss svc claim now error offset).Succeeds claim ∨
      ((commitMiss svc claim now error offset).Finishes claim ∧
        (commitMiss svc claim now error offset).watch.status = .expired) := by
  unfold commitMiss
  dsimp only
  split_ifs
  · exact .inr ⟨⟨by simp [commitTerminal], by simp [commitTerminal], rfl, rfl⟩,
      by simp [commitTerminal]⟩
  · exact .inl ⟨rfl, rfl, ⟨_, 0, rfl, rfl⟩, by simp⟩

/-- An outage schedules the next window or expires the watch. -/
theorem commitOutage_cases (svc : WatchService) (claim : WindowClaim) (now : Time) (error : String)
    (offset : ℚ) :
    (commitOutage svc claim now error offset).Succeeds claim ∨
      ((commitOutage svc claim now error offset).Finishes claim ∧
        (commitOutage svc claim now error offset).watch.status = .expired) := by
  unfold commitOutage
  dsimp only
  split
  · exact .inr ⟨⟨by simp [commitTerminal], by simp [commitTerminal], rfl, rfl⟩,
      by simp [commitTerminal]⟩
  · exact .inl ⟨rfl, rfl, ⟨_, _, rfl, rfl⟩, by simp⟩

/-- Every plan that the service builds schedules the next window or finishes the watch. -/
theorem Built.cases {svc : WatchService} {claim : WindowClaim} {plan : Plan}
    (h : Built svc claim plan) : plan.Succeeds claim ∨ plan.Finishes claim := by
  obtain ⟨verdict, now, offset, rfl⟩ := h
  cases verdict with
  | miss => exact (commitMiss_cases svc claim now none offset).imp_right And.left
  | outage error => exact (commitOutage_cases svc claim now error offset).imp_right And.left
  | exhausted | booked =>
    exact .inr ⟨by simp [Verdict.plan, commitTerminal], by simp [Verdict.plan, commitTerminal], rfl,
      rfl⟩
  | found | cancelled =>
    exact .inr ⟨rfl, by simp [Verdict.plan, commitTerminal, foundWatch, cancelledWatch], rfl, rfl⟩

/-- Every plan keeps the watch's id. -/
theorem Built.watchId {svc : WatchService} {claim : WindowClaim} {plan : Plan}
    (h : Built svc claim plan) : plan.watch.watchId = claim.watch.watchId := by
  rcases h.cases with hs | hf
  · exact hs.watchId
  · exact hf.watchId

end Dibs
