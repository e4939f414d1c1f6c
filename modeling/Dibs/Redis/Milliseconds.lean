import Dibs.Lib.Double
import Dibs.Models.Instants

/-!
# Milliseconds of instants

Redis keeps instants and durations as whole milliseconds. The source computes them in floats:
`int(moment.timestamp() * 1000)`. `timestamp` is the double nearest to the seconds, and the product is
rounded to a double again, so that the integer part can be a millisecond low: 1970-01-01T00:00:01.001Z
comes out as 1000. The order of instants is kept (`toMs_mono`), and the error stays below two
milliseconds (`abs_toMs_lt`). Whole seconds are exact (`wholeMilliseconds_second`), and so are whole
milliseconds from 2004-11-03 to 2038-01-19 (`toMs_millisecond`). On the way back a millisecond is
exact until the year 2242 (`fromMs_eq`), so that between those dates it comes back as it was written
(`toMs_fromMs`).
-/

namespace Dibs

/-- `int(seconds * 1000)` of the seconds of a number of microseconds, in floats. -/
def wholeMilliseconds (microseconds : ℤ) : ℤ :=
  truncate (toDouble (toDouble (microseconds / 1000000) * 1000))

theorem wholeMilliseconds_mono {a b : ℤ} (h : a ≤ b) : wholeMilliseconds a ≤ wholeMilliseconds b := by
  have hseconds : (a : ℚ) / 1000000 ≤ b / 1000000 := by
    gcongr
  have hproduct := Binary.round_mono (p := 53) (by decide) hseconds
  refine truncate_mono (Binary.round_mono (by decide) ?_)
  exact mul_le_mul_of_nonneg_right hproduct (by norm_num)

/-- Whole seconds are exact. -/
theorem wholeMilliseconds_second {seconds : ℤ} (h : |seconds| < 2 ^ 43) :
    wholeMilliseconds (seconds * 1000000) = seconds * 1000 := by
  have hcancel : ((seconds * 1000000 : ℤ) : ℚ) / 1000000 = seconds := by
    push_cast
    ring
  have hsmall : |seconds| < 2 ^ 53 := h.trans (by norm_num)
  have hproduct : |seconds * 1000| < 2 ^ 53 := by
    rw [abs_lt] at h ⊢
    constructor <;> linarith
  unfold wholeMilliseconds toDouble
  rw [hcancel, Binary.round_intCast hsmall]
  have hcast : (seconds : ℚ) * 1000 = ((seconds * 1000 : ℤ) : ℚ) := by push_cast; ring
  rw [hcast, Binary.round_intCast hproduct, truncate_intCast]

/-- In any year of a calendar, less than two milliseconds are lost. -/
theorem abs_wholeMilliseconds_lt {t : ℤ} (h : |t| < 2 ^ 58) : |1000 * wholeMilliseconds t - t| < 2000 := by
  have hq : |(t : ℚ) / 1000000| ≤ 2 ^ 58 / 1000000 := by
    have ht : |(t : ℚ)| < 2 ^ 58 := by exact_mod_cast h
    rw [abs_div, abs_of_pos (by norm_num : (0 : ℚ) < 1000000)]
    gcongr
  have hseconds : |toDouble (t / 1000000) - t / 1000000| ≤ 32 / 1000000 :=
    calc |toDouble (t / 1000000) - t / 1000000| ≤ |(t : ℚ) / 1000000| / 2 ^ 53 := Binary.abs_round_sub_le 53 _
      _ ≤ 2 ^ 58 / 1000000 / 2 ^ 53 := by gcongr
      _ = 32 / 1000000 := by norm_num
  have hlarge : |toDouble (t / 1000000) * 1000| ≤ 2 ^ 58 / 1000 + 1 := by
    rw [abs_le] at hq hseconds ⊢
    constructor <;> linarith
  have hproduct : |toDouble (toDouble (t / 1000000) * 1000) - toDouble (t / 1000000) * 1000| ≤ 33 / 1000 :=
    calc |toDouble (toDouble (t / 1000000) * 1000) - toDouble (t / 1000000) * 1000|
        ≤ |toDouble (t / 1000000) * 1000| / 2 ^ 53 := Binary.abs_round_sub_le 53 _
      _ ≤ (2 ^ 58 / 1000 + 1) / 2 ^ 53 := by gcongr
      _ ≤ 33 / 1000 := by norm_num
  have hcut := abs_truncate_sub_lt (toDouble (toDouble (t / 1000000) * 1000))
  have hbound : |((1000 * wholeMilliseconds t - t : ℤ) : ℚ)| < 2000 := by
    push_cast
    unfold wholeMilliseconds
    rw [abs_le] at hseconds hproduct
    rw [abs_lt] at hcut ⊢
    constructor <;> linarith
  exact_mod_cast hbound

/-- A whole millisecond is exact where its float is finer than the error of its seconds: once the
milliseconds have 41 bits, and until the seconds have 32. -/
theorem wholeMilliseconds_millisecond {ms : ℤ} (hlow : 2 ^ 40 < ms) (hhigh : ms < 2 ^ 31 * 1000) :
    wholeMilliseconds (ms * 1000) = ms := by
  have hlow' : (2 : ℚ) ^ 40 + 1 ≤ ms := by exact_mod_cast hlow
  have hhigh' : (ms : ℚ) + 1 ≤ 2 ^ 31 * 1000 := by exact_mod_cast hhigh
  have hcancel : ((ms * 1000 : ℤ) : ℚ) / 1000000 = ms / 1000 := by
    push_cast
    ring
  -- The seconds have 31 bits, so that their unit is two to the power of -22.
  have hunit : Binary.ulp 53 ((ms : ℚ) / 1000) = 2 ^ (-22 : ℤ) := by
    refine Binary.ulp_eq (k := 30) ?_ ?_
    · rw [abs_of_nonneg (by linarith)]
      norm_num
      linarith
    · rw [abs_of_nonneg (by linarith)]
      norm_num
      linarith
  have hseconds := Binary.abs_round_sub_le_ulp 53 ((ms : ℚ) / 1000)
  rw [hunit] at hseconds
  have hseconds := abs_le.mp hseconds
  norm_num at hseconds
  -- The product has 41 bits before the point.
  have hproduct : Binary.ulp 53 (Binary.round 53 ((ms : ℚ) / 1000) * 1000) = 2 ^ (-12 : ℤ) := by
    refine Binary.ulp_eq (k := 40) ?_ ?_
    · rw [abs_of_nonneg (by linarith)]
      norm_num
      linarith
    · rw [abs_of_nonneg (by linarith)]
      norm_num
      linarith
  have hms : ((ms * 2 ^ 12 : ℤ) : ℚ) * 2 ^ (-12 : ℤ) = ms := by
    push_cast
    norm_num
    ring
  have hround : Binary.round 53 (Binary.round 53 ((ms : ℚ) / 1000) * 1000) = ms := by
    have hnear := Binary.round_eq_of_near (p := 53) (x := Binary.round 53 ((ms : ℚ) / 1000) * 1000) (ms * 2 ^ 12)
    rw [hproduct, hms] at hnear
    refine hnear ?_
    rw [abs_lt]
    norm_num
    constructor <;> linarith
  unfold wholeMilliseconds toDouble
  rw [hcancel, hround, truncate_intCast]

/-- `_to_ms`. Before the year 1 and after 9999 there is no `datetime`; the milliseconds are cut off there. -/
def toMs (moment : Time) : ℤ :=
  if IsDatetime moment then wholeMilliseconds moment else moment.tdiv 1000

theorem isDatetime_iff {t : ℤ} : IsDatetime t ↔ -62135596800000000 ≤ t ∧ t ≤ 253402300799999999 := Iff.rfl

/-- Less than two milliseconds are lost. -/
theorem abs_toMs_lt (t : ℤ) : |1000 * toMs t - t| < 2000 := by
  unfold toMs
  split_ifs with h
  · refine abs_wholeMilliseconds_lt ?_
    rw [isDatetime_iff] at h
    rw [abs_lt]
    omega
  · rw [abs_lt]
    have hdiv := Int.mul_tdiv_add_tmod t 1000
    have hrest := Int.tmod_lt_of_pos t (by decide : (0 : ℤ) < 1000)
    have hrest' := Int.lt_tmod_of_pos t (by decide : (0 : ℤ) < 1000)
    omega

theorem toMs_mono {a b : ℤ} (h : a ≤ b) : toMs a ≤ toMs b := by
  have hfirst : wholeMilliseconds (-62135596800000000) = -62135596800000 := by decide +kernel
  have hlast : wholeMilliseconds 253402300799999999 = 253402300800000 := by decide +kernel
  unfold toMs
  split_ifs with ha hb hb
  · exact wholeMilliseconds_mono h
  · -- The last instant of a `datetime` is rounded up to the millisecond after it.
    rw [isDatetime_iff] at ha hb
    have hle := wholeMilliseconds_mono ha.2
    have hcut : Int.tdiv 253402300800000000 1000 ≤ b.tdiv 1000 := Int.tdiv_le_tdiv (by decide) (by omega)
    have hnext : Int.tdiv 253402300800000000 1000 = 253402300800000 := by decide
    omega
  · rw [isDatetime_iff] at ha hb
    have hle := wholeMilliseconds_mono hb.1
    have hcut : a.tdiv 1000 ≤ Int.tdiv (-62135596800000000) 1000 := Int.tdiv_le_tdiv (by decide) (by omega)
    have hprevious : Int.tdiv (-62135596800000000) 1000 = -62135596800000 := by decide
    omega
  · exact Int.tdiv_le_tdiv (by decide) h

/-- Instants that lie four milliseconds apart are at different milliseconds. -/
theorem toMs_lt {a b : ℤ} (h : a + 4000 ≤ b) : toMs a < toMs b := by
  have ha := abs_lt.mp (abs_toMs_lt a)
  have hb := abs_lt.mp (abs_toMs_lt b)
  omega

/-- Whole milliseconds are exact from 2004-11-03 to 2038-01-19. -/
theorem toMs_millisecond {ms : ℤ} (hlow : 2 ^ 40 < ms) (hhigh : ms < 2 ^ 31 * 1000) :
    toMs (ms * 1000) = ms := by
  have h : IsDatetime (ms * 1000) := by
    rw [isDatetime_iff]
    omega
  unfold toMs
  rw [if_pos h]
  exact wholeMilliseconds_millisecond hlow hhigh

/-- `_from_ms`: `datetime.fromtimestamp(milliseconds / 1000)` splits the float into whole seconds and a rest,
and rounds the rest to microseconds. -/
def fromMs (milliseconds : ℤ) : Time :=
  let seconds := toDouble (milliseconds / 1000)
  truncate seconds * 1000000 + roundHalfEven (toDouble ((seconds - truncate seconds) * 1000000))

/-- Before the year 2242 the float is within half a microsecond, and the millisecond comes back. -/
theorem fromMs_eq {ms : ℤ} (h : |ms| < 2 ^ 33 * 1000) : fromMs ms = ms * 1000 := by
  have hq : |(ms : ℚ) / 1000| < 2 ^ (33 : ℤ) := by
    have hms : |(ms : ℚ)| < 2 ^ 33 * 1000 := by exact_mod_cast h
    rw [abs_div, abs_of_pos (by norm_num : (0 : ℚ) < 1000), div_lt_iff₀ (by norm_num)]
    exact_mod_cast hms
  have hseconds : |toDouble (ms / 1000) - ms / 1000| ≤ 2 ^ ((33 : ℤ) - (53 : ℕ)) / 2 :=
    Binary.abs_round_sub_le_of_abs_lt 53 hq
  norm_num at hseconds
  set seconds := toDouble (ms / 1000)
  have hcut := abs_truncate_sub_lt seconds
  have hrest : |(seconds - truncate seconds) * 1000000| < 2 ^ (20 : ℤ) := by
    rw [abs_lt] at hcut ⊢
    norm_num
    constructor <;> linarith
  have hmicroseconds : |toDouble ((seconds - truncate seconds) * 1000000) -
      (seconds - truncate seconds) * 1000000| ≤ 2 ^ ((20 : ℤ) - (53 : ℕ)) / 2 :=
    Binary.abs_round_sub_le_of_abs_lt 53 hrest
  norm_num at hmicroseconds
  -- The rest in microseconds is nearest to the whole number that is missing.
  have hround : roundHalfEven (toDouble ((seconds - truncate seconds) * 1000000)) =
      ms * 1000 - truncate seconds * 1000000 := by
    refine roundHalfEven_eq ?_
    push_cast
    rw [abs_le] at hseconds hmicroseconds
    rw [abs_lt]
    constructor <;> linarith
  change truncate seconds * 1000000 + _ = _
  rw [hround]
  ring

/-- Between 2004-11-03 and 2038-01-19 a millisecond comes back from Redis as it was written. -/
theorem toMs_fromMs {ms : ℤ} (hlow : 2 ^ 40 < ms) (hhigh : ms < 2 ^ 31 * 1000) : toMs (fromMs ms) = ms := by
  have hsmall : |ms| < 2 ^ 33 * 1000 := by
    rw [abs_lt]
    constructor <;> omega
  rw [fromMs_eq hsmall]
  exact toMs_millisecond hlow hhigh

example : toMs 1001000 = 1000 ∧ toMs 2147483648002000 = 2147483648001 := by decide +kernel

end Dibs
