import Dibs.Lib.Double
import Dibs.Models.Reservation

/-!
# Seconds and poll schedules

The source keeps delays in floating-point seconds and instants in microseconds. A number of seconds
is an exact rational here; `timedelta` rounds it to microseconds as Python does, to the nearest with
ties to even. `PollSchedule` is the class of `backend/workers/scheduler.py`, its `__post_init__`
checks being fields. Random draws are arguments.
-/

namespace Dibs

/-- `timedelta(seconds=…)`. -/
def timedelta (seconds : ℚ) : Duration := roundHalfEven (seconds * 1000000)

/-- `timedelta.total_seconds`. -/
def totalSeconds (d : Duration) : ℚ := d / 1000000

/-- `MIN_DELAY_SECONDS`: the floor under every delay. -/
def minDelaySeconds : ℚ := 1

/-- `PollSchedule`: how long to wait between two availability checks for one watch. -/
structure PollSchedule where
  intervalSeconds : ℚ
  jitterSeconds : ℚ
  /-- `interval_seconds` must be positive. -/
  interval_pos : 0 < intervalSeconds
  /-- `jitter_seconds` cannot be negative. -/
  jitter_nonneg : 0 ≤ jitterSeconds
  /-- `jitter_seconds` must be smaller than `interval_seconds`. -/
  jitter_lt : jitterSeconds < intervalSeconds

/-- What `uniform(-jitter, jitter)` can draw. -/
def PollSchedule.Draws (schedule : PollSchedule) (offset : ℚ) : Prop :=
  -schedule.jitterSeconds ≤ offset ∧ offset ≤ schedule.jitterSeconds

/-- `PollSchedule.next_delay`: the next delay in seconds, jittered around the interval. -/
def PollSchedule.nextDelay (schedule : PollSchedule) (offset : ℚ) : ℚ :=
  max minDelaySeconds (schedule.intervalSeconds + offset)

end Dibs
