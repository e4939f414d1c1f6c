import Mathlib.Data.Rat.Floor
import Dibs.Config.Settings
import Dibs.Service.Creation

/-!
# Creating a watch under the settings of the environment

The part of `WatchService.create` before its first write computes with dates, instants and counts:
`default_expiry`, `AvailabilityPolicyFactory.derive` and the constructors of the watch and its sidecar. Here it is run
under the settings that `from_environment` returns. `creation_total_iff` says for which dates it completes: there is a
day after the date, and the deadline is not further away than the largest count of attempts.
-/

namespace Dibs

/-- The ceiling division of the policy. -/
theorem ceil_div {n d : ℤ} (hd : 0 < d) : ⌈(n : ℚ) / d⌉ = -(-n / d) := by
  obtain ⟨m, rfl⟩ := Int.eq_ofNat_of_zero_le hd.le
  exact Rat.ceil_intCast_div_natCast n m

/-- `AvailabilityPolicyFactory.derive` under a positive ceiling. -/
theorem derive_spec (schedule : PollSchedule) {now expiresAt : Time} (hafter : now < expiresAt)
    {safetyCeiling : ℕ} (hceiling : 1 ≤ safetyCeiling) :
    ∃ policy, derive schedule now expiresAt safetyCeiling = .ok policy ∧
      (policy.requiredAttempts : ℤ) = 1 + ⌈((expiresAt - now : ℤ) : ℚ) / schedule.earliestDelayMicroseconds⌉ ∧
      policy.effectiveAttempts = min policy.requiredAttempts safetyCeiling := by
  have hpos := schedule.earliestDelayMicroseconds_pos
  have hnonneg : (0 : ℤ) ≤ expiresAt - now := sub_nonneg.mpr hafter.le
  have hcount : 0 ≤ -(-(expiresAt - now) / schedule.earliestDelayMicroseconds) :=
    neg_nonneg.mpr (Int.ediv_nonpos_of_nonpos_of_neg (neg_nonpos.mpr hnonneg) hpos)
  unfold derive
  dsimp only
  rw [if_neg (by omega), max_eq_right hnonneg]
  refine ⟨_, rfl, ?_, rfl⟩
  dsimp only
  rw [ceil_div hpos, Int.toNat_of_nonneg (add_nonneg hcount zero_le_one)]
  ring

/-- The constructors accept what is opened as long as the attempts that it requires can be stored. -/
theorem openedWatch_valid_iff {hex : String} (hhex : hex.toList.length = 32) {query : AvailabilityQuery}
    (hquery : query.Valid) (autoBook : Bool) (now expiresAt : Time) {policy : AvailabilityPolicy}
    (hrequired : 1 ≤ policy.requiredAttempts) (heffective : 1 ≤ policy.effectiveAttempts) :
    ((openedWatch ("watch_" ++ hex) query autoBook now expiresAt policy).1.Valid ∧
        (openedWatch ("watch_" ++ hex) query autoBook now expiresAt policy).2.Valid) ↔
      policy.requiredAttempts ≤ maxRequiredAttempts := by
  have hid : ("watch_" ++ hex).toList.length = 38 := by
    rw [String.toList_append, List.length_append, hhex]
    rfl
  have hwindow : (windowIdFor ("watch_" ++ hex) 0).toList.length = 40 := by
    unfold windowIdFor
    rw [String.toList_append, String.toList_append, List.length_append, List.length_append, hid]
    rfl
  constructor
  · rintro ⟨-, hruntime⟩
    exact hruntime.requiredAttempts.2
  · intro hle
    refine ⟨{
      watchId := ⟨le_of_le_of_eq (by decide) hid.symm, hid.trans_le (by decide)⟩
      query := hquery
      maxAttempts := heffective
      foundSlots := ⟨Nat.zero_le _, fun _ h => absurd h List.not_mem_nil⟩
      booking := fun _ h => by contradiction
      lastError := fun _ h => by contradiction
      consistent := ⟨fun h => by contradiction, fun h => by contradiction, fun h => by contradiction, Nat.zero_le _⟩
    }, {
      revision := Nat.zero_le _
      requiredAttempts := ⟨hrequired, hle⟩
      consecutiveOutages := Nat.zero_le _
      cadenceSequence := Nat.zero_le _
      windowId := ?_
    }⟩
    intro windowId h
    obtain rfl := Option.some.inj h
    exact ⟨Nat.zero_le _, hwindow.trans_le (by decide)⟩

/-- The deadline of a watch that is opened on a date. -/
def deadlineOf (zone : Zone) (now : Time) (date : ℕ) : Time := max (zone.midnight (date + 1)) (now + 60000000)

theorem lt_deadlineOf (zone : Zone) (now : Time) (date : ℕ) : now < deadlineOf zone now date :=
  lt_of_lt_of_le (lt_add_of_pos_right now (by decide)) (le_max_right ..)

/-- Opening a watch completes, with the deadline and the counts that its policy promises. -/
def Opens (settings : WatchSettings) (zone : Zone) (now : Time) (watchId : String) (query : AvailabilityQuery)
    (autoBook : Bool) : Prop :=
  ∃ watch runtime,
    settings.service.openWatch settings.maxPollAttempts zone now watchId query autoBook = .ok (watch, runtime) ∧
      now < watch.expiresAt ∧
      (runtime.requiredAttempts : ℤ) =
        1 + ⌈totalSeconds (watch.expiresAt - now) / settings.schedule.earliestDelay⌉ ∧
      1 ≤ watch.maxAttempts ∧ watch.maxAttempts ≤ runtime.requiredAttempts

/-- There is a day after the date, and the deadline is not further away than the attempts that can be stored. -/
def DateFits (settings : WatchSettings) (zone : Zone) (now : Time) (date : ℕ) : Prop :=
  date < maxOrdinal ∧
    deadlineOf zone now date - now ≤ (maxRequiredAttempts - 1) * settings.schedule.earliestDelayMicroseconds

instance (settings : WatchSettings) (zone : Zone) (now : Time) (date : ℕ) :
    Decidable (DateFits settings zone now date) := inferInstanceAs (Decidable (_ ∧ _))

section Opening

variable {settings : WatchSettings} {zone : Zone} {now : Time} {hex : String} {query : AvailabilityQuery} {date : ℕ}
  (autoBook : Bool)

/-- `openWatch` for a date that is not past. -/
theorem openWatch_eq (watchId : String) (hdate : dateOrdinal query.date = some date)
    (htoday : zone.localDate now ≤ date) {policy : AvailabilityPolicy}
    (hpolicy : derive settings.schedule now (deadlineOf zone now date) settings.maxPollAttempts = .ok policy) :
    settings.service.openWatch settings.maxPollAttempts zone now watchId query autoBook =
      if date < maxOrdinal then
        if (openedWatch watchId query autoBook now (deadlineOf zone now date) policy).1.Valid ∧
            (openedWatch watchId query autoBook now (deadlineOf zone now date) policy).2.Valid then
          .ok (openedWatch watchId query autoBook now (deadlineOf zone now date) policy)
        else .error (.value "validation error")
      else .error (.value "date value out of range") := by
  unfold WatchService.openWatch defaultExpiry
  simp only [hdate, bind, Except.bind]
  rw [if_neg (by omega)]
  by_cases hfits : date < maxOrdinal
  · rw [if_neg (by omega), if_pos hfits]
    dsimp only
    rw [show derive settings.service.schedule now (max (zone.midnight (date + 1)) (now + 60000000))
      settings.maxPollAttempts = .ok policy from hpolicy]
    rfl
  · rw [if_pos (by omega), if_neg hfits]

/-- The attempts that a policy requires are counted from the earliest delay in seconds. -/
theorem remaining_div_eq (settings : WatchSettings) (remaining : Duration) :
    ((remaining : ℤ) : ℚ) / settings.schedule.earliestDelayMicroseconds =
      totalSeconds remaining / settings.schedule.earliestDelay := by
  have hpos : (0 : ℚ) < settings.schedule.earliestDelayMicroseconds :=
    Int.cast_pos.mpr settings.schedule.earliestDelayMicroseconds_pos
  have hmicro := settings.earliestDelayMicroseconds_eq
  have hdelay : settings.schedule.earliestDelay ≠ 0 := by
    intro hzero
    rw [hmicro, hzero, zero_mul] at hpos
    exact lt_irrefl _ hpos
  rw [hmicro]
  unfold totalSeconds
  field_simp

/-- The attempts until the deadline can be stored just when the deadline is not too far away. -/
theorem required_le_iff {schedule : PollSchedule} {remaining : ℤ} {required : ℕ}
    (hrequired : (required : ℤ) = 1 + ⌈(remaining : ℚ) / schedule.earliestDelayMicroseconds⌉) :
    required ≤ maxRequiredAttempts ↔
      remaining ≤ (maxRequiredAttempts - 1) * schedule.earliestDelayMicroseconds := by
  have hpos : (0 : ℚ) < schedule.earliestDelayMicroseconds :=
    Int.cast_pos.mpr schedule.earliestDelayMicroseconds_pos
  calc required ≤ maxRequiredAttempts
      ↔ (required : ℤ) ≤ maxRequiredAttempts := Int.ofNat_le.symm
    _ ↔ ⌈(remaining : ℚ) / schedule.earliestDelayMicroseconds⌉ ≤ (maxRequiredAttempts : ℤ) - 1 := by
      rw [hrequired]
      omega
    _ ↔ (remaining : ℚ) ≤ (((maxRequiredAttempts : ℤ) - 1 : ℤ) : ℚ) * schedule.earliestDelayMicroseconds := by
      rw [Int.ceil_le, div_le_iff₀ hpos]
    _ ↔ remaining ≤ (maxRequiredAttempts - 1) * schedule.earliestDelayMicroseconds := by
      rw [← Int.cast_mul, Int.cast_le]

/-- A watch is opened for a date that fits, and for another one the creation stops with an exception that nothing
catches. -/
theorem openWatch_spec (hhex : hex.toList.length = 32) (hquery : query.Valid)
    (hdate : dateOrdinal query.date = some date) (htoday : zone.localDate now ≤ date) :
    DateFits settings zone now date ∧ Opens settings zone now ("watch_" ++ hex) query autoBook ∨
      ¬ DateFits settings zone now date ∧ ∃ message, settings.service.openWatch settings.maxPollAttempts zone now
        ("watch_" ++ hex) query autoBook = .error (.value message) := by
  have hafter := lt_deadlineOf zone now date
  obtain ⟨policy, hpolicy, hrequired, heffective⟩ :=
    derive_spec settings.schedule hafter settings.attempts_bounds.1
  have hpos : (0 : ℚ) < settings.schedule.earliestDelayMicroseconds :=
    Int.cast_pos.mpr settings.schedule.earliestDelayMicroseconds_pos
  have hcount : 0 ≤ ⌈((deadlineOf zone now date - now : ℤ) : ℚ) / settings.schedule.earliestDelayMicroseconds⌉ :=
    Int.ceil_nonneg (div_nonneg (Int.cast_nonneg (sub_nonneg.mpr hafter.le)) hpos.le)
  have hrequired_pos : 1 ≤ policy.requiredAttempts := by omega
  have heffective_pos : 1 ≤ policy.effectiveAttempts := by
    rw [heffective]
    exact le_min hrequired_pos settings.attempts_bounds.1
  have hstored := required_le_iff hrequired
  have hvalid := openedWatch_valid_iff hhex hquery autoBook now (deadlineOf zone now date) hrequired_pos
    heffective_pos
  have hopen := openWatch_eq autoBook ("watch_" ++ hex) hdate htoday hpolicy
  by_cases hlast : date < maxOrdinal
  · rw [if_pos hlast] at hopen
    by_cases hfar : deadlineOf zone now date - now ≤
        (maxRequiredAttempts - 1) * settings.schedule.earliestDelayMicroseconds
    · rw [if_pos (hvalid.mpr (hstored.mpr hfar))] at hopen
      refine .inl ⟨⟨hlast, hfar⟩, _, _, hopen, hafter, ?_, heffective_pos, ?_⟩
      · rw [← remaining_div_eq]
        exact hrequired
      · exact heffective.trans_le (min_le_left ..)
    · rw [if_neg fun h => hfar (hstored.mp (hvalid.mp h))] at hopen
      exact .inr ⟨fun h => hfar h.2, _, hopen⟩
  · rw [if_neg hlast] at hopen
    exact .inr ⟨fun h => hlast h.1, _, hopen⟩

end Opening

/-- Opening a watch on a date that is not past completes if and only if the date fits. -/
theorem creation_total_iff {names : String → ZoneAnswer} {data : UrlData} {env : Environment} {s : WatchConfiguration}
    (hs : fromEnvironment names data env = .ok s) (zone : Zone) (now : Time) {hex : String}
    (hhex : hex.toList.length = 32) {query : AvailabilityQuery} (hquery : query.Valid) {date : ℕ}
    (hdate : dateOrdinal query.date = some date) (htoday : zone.localDate now ≤ date) (autoBook : Bool) :
    Opens (s.polling (inRange_of_fromEnvironment hs)) zone now ("watch_" ++ hex) query autoBook ↔
      DateFits (s.polling (inRange_of_fromEnvironment hs)) zone now date := by
  rcases @openWatch_spec (s.polling (inRange_of_fromEnvironment hs)) zone now hex query date autoBook hhex hquery hdate
    htoday with ⟨hfits, hopens⟩ | ⟨hfar, message, hraises⟩
  · exact ⟨fun _ => hfits, fun _ => hopens⟩
  · refine ⟨?_, fun hfits => absurd hfits hfar⟩
    rintro ⟨watch, runtime, hok, -⟩
    rw [hraises] at hok
    contradiction

/-- A watch for the first day of 2030, created at the start of 2026, is opened. -/
theorem creation_total_iff_sample :
    Opens (utcConfiguration.polling (inRange_of_fromEnvironment fromEnvironment_utc)) .utc 1767225600000000
      "watch_00000000000000000000000000000000" .sample false :=
  (@creation_total_iff _ _ _ _ fromEnvironment_utc .utc 1767225600000000 "00000000000000000000000000000000" (by decide)
    .sample (by decide +kernel) 741078 (by decide +kernel) (by decide) false).mpr (by decide +kernel)

/-- A table for two on the last day of the calendar. -/
def AvailabilityQuery.lastDay : AvailabilityQuery := { AvailabilityQuery.sample with date := "9999-12-31" }

/-- There is no midnight after the last day. -/
theorem last_day_not_opened : AvailabilityQuery.lastDay.Valid ∧
    dateOrdinal AvailabilityQuery.lastDay.date = some maxOrdinal ∧ Zone.utc.localDate 1767225600000000 ≤ maxOrdinal ∧
    ¬ Opens (utcConfiguration.polling (inRange_of_fromEnvironment fromEnvironment_utc)) .utc
      1767225600000000 "watch_00000000000000000000000000000000" .lastDay false := by
  have hvalid : AvailabilityQuery.lastDay.Valid := by decide +kernel
  have hdate : dateOrdinal AvailabilityQuery.lastDay.date = some maxOrdinal := by decide +kernel
  have htoday : Zone.utc.localDate 1767225600000000 ≤ maxOrdinal := by decide
  refine ⟨hvalid, hdate, htoday, ?_⟩
  rintro ⟨watch, runtime, hok, -⟩
  have hraises : (utcConfiguration.polling (inRange_of_fromEnvironment fromEnvironment_utc)).service.openWatch 25000
      .utc 1767225600000000 "watch_00000000000000000000000000000000" .lastDay false =
      .error (.value "date value out of range") := by
    unfold WatchService.openWatch
    rw [hdate]
    rfl
  exact absurd (hok.symm.trans hraises) (by simp)

end Dibs
