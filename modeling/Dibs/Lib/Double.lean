import Mathlib.Data.Int.Log
import Mathlib.Data.Rat.Floor
import Mathlib.Tactic.FieldSimp
import Mathlib.Tactic.Linarith
import Mathlib.Tactic.Positivity
import Mathlib.Tactic.Ring

/-!
# Binary floating point numbers as rationals

`Binary.round p` rounds a number to the nearest one of `p` significant bits, ties to even. It is monotone
(`round_mono`), its error is at most a part in `2 ^ p` of the number (`abs_round_sub_le`), and a number
that lies less than half a unit from a multiple of the unit is rounded to that multiple (`round_eq_of_near`).
Exponents have no bounds: overflow, subnormal numbers and the sign of zero are left out.
-/

namespace Dibs

/-- The nearest integer, ties to even. -/
def roundHalfEven (q : ℚ) : ℤ :=
  if q - ⌊q⌋ < 1 / 2 then ⌊q⌋
  else if 1 / 2 < q - ⌊q⌋ then ⌊q⌋ + 1
  else if ⌊q⌋ % 2 = 0 then ⌊q⌋ else ⌊q⌋ + 1

/-- The integer is at most a half away. -/
theorem abs_roundHalfEven_sub_le (x : ℚ) : |(roundHalfEven x : ℚ) - x| ≤ 1 / 2 := by
  have hfloor := Int.floor_le x
  have hnext := Int.lt_floor_add_one x
  unfold roundHalfEven
  rw [abs_le]
  split_ifs <;> push_cast <;> constructor <;> linarith

/-- An integer that is less than a half away is the one. -/
theorem roundHalfEven_eq {x : ℚ} {n : ℤ} (h : |x - n| < 1 / 2) : roundHalfEven x = n := by
  have hround := abs_roundHalfEven_sub_le x
  have hclose : |((roundHalfEven x - n : ℤ) : ℚ)| < 1 := by
    calc |((roundHalfEven x - n : ℤ) : ℚ)| = |((roundHalfEven x : ℚ) - x) + (x - n)| := by push_cast; ring_nf
      _ ≤ |(roundHalfEven x : ℚ) - x| + |x - n| := abs_add_le _ _
      _ < 1 := by linarith
  have hzero : |roundHalfEven x - n| < 1 := by exact_mod_cast hclose
  have := Int.abs_lt_one_iff.mp hzero
  omega

@[simp]
theorem roundHalfEven_intCast (n : ℤ) : roundHalfEven n = n := roundHalfEven_eq (by simp)

theorem roundHalfEven_mono {x y : ℚ} (h : x ≤ y) : roundHalfEven x ≤ roundHalfEven y := by
  have hx := abs_le.mp (abs_roundHalfEven_sub_le x)
  have hy := abs_le.mp (abs_roundHalfEven_sub_le y)
  by_contra hlt
  have hstep : (roundHalfEven y : ℚ) + 1 ≤ roundHalfEven x := by exact_mod_cast not_le.mp hlt
  -- Only between two integers could they be exchanged, and there both are the same number.
  have heq : x = y := by linarith
  subst heq
  exact hlt le_rfl

/-- Rounding does not fall below an integer. -/
theorem le_roundHalfEven {n : ℤ} {q : ℚ} (h : n ≤ q) : n ≤ roundHalfEven q := by
  rw [← roundHalfEven_intCast n]
  exact roundHalfEven_mono h

/-- Rounding does not rise above an integer. -/
theorem roundHalfEven_le {n : ℤ} {q : ℚ} (h : q ≤ n) : roundHalfEven q ≤ n := by
  rw [← roundHalfEven_intCast n]
  exact roundHalfEven_mono h

/-- The integer part, toward zero. -/
def truncate (q : ℚ) : ℤ := q.num.tdiv q.den

theorem truncate_of_nonneg {q : ℚ} (h : 0 ≤ q) : truncate q = ⌊q⌋ := by
  unfold truncate
  rw [Int.tdiv_eq_ediv_of_nonneg (Rat.num_nonneg.mpr h)]
  exact Rat.floor_def'.symm

theorem truncate_neg (q : ℚ) : truncate (-q) = -truncate q := by
  unfold truncate
  rw [Rat.num_neg_eq_neg_num, Rat.den_neg_eq_den, Int.neg_tdiv]

theorem truncate_of_nonpos {q : ℚ} (h : q ≤ 0) : truncate q = ⌈q⌉ := by
  have hneg := truncate_of_nonneg (neg_nonneg.mpr h)
  rw [truncate_neg, Int.floor_neg] at hneg
  exact neg_injective hneg

@[simp]
theorem truncate_intCast (n : ℤ) : truncate n = n := by
  unfold truncate
  simp

/-- Less than one is cut off. -/
theorem abs_truncate_sub_lt (q : ℚ) : |(truncate q : ℚ) - q| < 1 := by
  rw [abs_lt]
  rcases le_total 0 q with h | h
  · rw [truncate_of_nonneg h]
    constructor <;> linarith [Int.floor_le q, Int.lt_floor_add_one q]
  · rw [truncate_of_nonpos h]
    constructor <;> linarith [Int.le_ceil q, Int.ceil_lt_add_one q]

theorem truncate_mono {x y : ℚ} (h : x ≤ y) : truncate x ≤ truncate y := by
  rcases le_total 0 x with hx | hx
  · rw [truncate_of_nonneg hx, truncate_of_nonneg (hx.trans h)]
    exact Int.floor_mono h
  · rw [truncate_of_nonpos hx]
    rcases le_total 0 y with hy | hy
    · rw [truncate_of_nonneg hy]
      exact (Int.ceil_le.mpr (by exact_mod_cast hx)).trans (Int.floor_nonneg.mpr hy)
    · rw [truncate_of_nonpos hy]
      exact Int.ceil_mono h

namespace Binary

variable {p : ℕ} {x y : ℚ}

/-- The unit in the last place of `p` significant bits. -/
def ulp (p : ℕ) (x : ℚ) : ℚ := 2 ^ (Int.log 2 |x| + 1 - p)

/-- The number of `p` significant bits nearest to a number. -/
def round (p : ℕ) (x : ℚ) : ℚ := roundHalfEven (x / ulp p x) * ulp p x

theorem ulp_pos (p : ℕ) (x : ℚ) : 0 < ulp p x := zpow_pos (by decide) _

/-- Numbers between the same powers of two have the same unit. -/
theorem ulp_eq {k : ℤ} (hlow : 2 ^ k ≤ |x|) (hhigh : |x| < 2 ^ (k + 1)) : ulp p x = 2 ^ (k + 1 - p) := by
  have hpos : 0 < |x| := lt_of_lt_of_le (zpow_pos (by decide) k) hlow
  have hle : k ≤ Int.log 2 |x| := (Int.zpow_le_iff_le_log (by decide) hpos).mp hlow
  have hlt : Int.log 2 |x| < k + 1 := (Int.lt_zpow_iff_log_lt (by decide) hpos).mp hhigh
  have hlog : Int.log 2 |x| = k := by omega
  unfold ulp
  rw [hlog]

/-- The unit is small next to the number. -/
theorem ulp_le (hx : x ≠ 0) : ulp p x ≤ |x| * 2 / 2 ^ p := by
  have hlog : (2 : ℚ) ^ Int.log 2 |x| ≤ |x| := Int.zpow_log_le_self (by decide) (abs_pos.mpr hx)
  unfold ulp
  rw [zpow_sub₀ (by decide), zpow_add_one₀ (by decide), zpow_natCast]
  gcongr

/-- Below a power of two the unit is no larger than below it. -/
theorem ulp_le_of_abs_lt {k : ℤ} (hx : x ≠ 0) (h : |x| < 2 ^ k) : ulp p x ≤ 2 ^ (k - p) := by
  have hlog : Int.log 2 |x| < k := (Int.lt_zpow_iff_log_lt (by decide) (abs_pos.mpr hx)).mp h
  unfold ulp
  gcongr
  · norm_num
  · omega

/-- What is rounded stays within half a unit. -/
theorem abs_round_sub_le_ulp (p : ℕ) (x : ℚ) : |round p x - x| ≤ ulp p x / 2 := by
  have hpos := ulp_pos p x
  have hround := abs_roundHalfEven_sub_le (x / ulp p x)
  have hscale : round p x - x = (roundHalfEven (x / ulp p x) - x / ulp p x) * ulp p x := by
    unfold round
    field_simp
  rw [hscale, abs_mul, abs_of_pos hpos]
  calc |(roundHalfEven (x / ulp p x) : ℚ) - x / ulp p x| * ulp p x ≤ 1 / 2 * ulp p x := by gcongr
    _ = ulp p x / 2 := by ring

/-- The absolute error below a power of two. -/
theorem abs_round_sub_le_of_abs_lt (p : ℕ) {k : ℤ} (h : |x| < 2 ^ k) : |round p x - x| ≤ 2 ^ (k - p) / 2 := by
  rcases eq_or_ne x 0 with rfl | hx
  · have hzero : round p 0 = 0 := by simp [round, roundHalfEven]
    rw [hzero, sub_zero, abs_zero]
    exact (half_pos (zpow_pos (by decide) _)).le
  · calc |round p x - x| ≤ ulp p x / 2 := abs_round_sub_le_ulp p x
      _ ≤ 2 ^ (k - p) / 2 := by gcongr; exact ulp_le_of_abs_lt hx h

/-- The relative error. -/
theorem abs_round_sub_le (p : ℕ) (x : ℚ) : |round p x - x| ≤ |x| / 2 ^ p := by
  rcases eq_or_ne x 0 with rfl | hx
  · simp [round, roundHalfEven]
  · calc |round p x - x| ≤ ulp p x / 2 := abs_round_sub_le_ulp p x
      _ ≤ |x| * 2 / 2 ^ p / 2 := by gcongr; exact ulp_le hx
      _ = |x| / 2 ^ p := by ring

/-- A number that lies less than half a unit from a multiple of its unit is rounded to that one. -/
theorem round_eq_of_near (m : ℤ) (h : |x - m * ulp p x| < ulp p x / 2) : round p x = m * ulp p x := by
  have hpos := ulp_pos p x
  have hnear : |x / ulp p x - m| < 1 / 2 := by
    have hscale : x / ulp p x - m = (x - m * ulp p x) / ulp p x := by field_simp
    rw [hscale, abs_div, abs_of_pos hpos, div_lt_iff₀ hpos]
    linarith
  unfold round
  rw [roundHalfEven_eq hnear]

/-- Rounding does not pass a multiple of the unit. -/
theorem round_le {m : ℤ} (h : x ≤ m * ulp p x) : round p x ≤ m * ulp p x := by
  have hpos := ulp_pos p x
  have hle : roundHalfEven (x / ulp p x) ≤ m := by
    rw [← roundHalfEven_intCast m]
    exact roundHalfEven_mono ((div_le_iff₀ hpos).mpr h)
  unfold round
  gcongr

theorem le_round {m : ℤ} (h : m * ulp p x ≤ x) : m * ulp p x ≤ round p x := by
  have hpos := ulp_pos p x
  have hle : m ≤ roundHalfEven (x / ulp p x) := by
    rw [← roundHalfEven_intCast m]
    exact roundHalfEven_mono ((le_div_iff₀ hpos).mpr h)
  unfold round
  gcongr

/-- A power of two that is no less than the unit is a multiple of it. -/
theorem zpow_eq_mul_ulp {k : ℤ} (h : Int.log 2 |x| + 1 - p ≤ k) : ∃ m : ℤ, (2 : ℚ) ^ k = m * ulp p x := by
  refine ⟨2 ^ (k - (Int.log 2 |x| + 1 - p)).toNat, ?_⟩
  have hexp : k = ((k - (Int.log 2 |x| + 1 - p)).toNat : ℤ) + (Int.log 2 |x| + 1 - p) := by omega
  unfold ulp
  rw [Int.cast_pow, Int.cast_ofNat, ← zpow_natCast, ← zpow_add₀ (by decide), ← hexp]

/-- Two numbers with a multiple of both their units between them keep their order. -/
theorem round_le_round_of_between {c : ℚ} (hx : x ≤ c) (hy : c ≤ y) (hxc : ∃ m : ℤ, c = m * ulp p x)
    (hyc : ∃ m : ℤ, c = m * ulp p y) : round p x ≤ round p y := by
  obtain ⟨m, hm⟩ := hxc
  obtain ⟨n, hn⟩ := hyc
  calc round p x ≤ m * ulp p x := round_le (hm ▸ hx)
    _ = n * ulp p y := hm.symm.trans hn
    _ ≤ round p y := le_round (hn ▸ hy)

/-- Numbers with one unit keep their order. -/
theorem round_le_round_of_ulp (hulp : ulp p x = ulp p y) (h : x ≤ y) : round p x ≤ round p y := by
  have hpos := ulp_pos p y
  have hle : roundHalfEven (x / ulp p y) ≤ roundHalfEven (y / ulp p y) := roundHalfEven_mono (by gcongr)
  unfold round
  rw [hulp]
  gcongr

/-- The powers of two around a number. -/
theorem zpow_log_le_abs (hx : x ≠ 0) : (2 : ℚ) ^ Int.log 2 |x| ≤ |x| :=
  Int.zpow_log_le_self (by decide) (abs_pos.mpr hx)

theorem abs_lt_zpow {k : ℤ} (hx : x ≠ 0) (h : Int.log 2 |x| < k) : |x| < 2 ^ k :=
  (Int.lt_zpow_iff_log_lt (by decide) (abs_pos.mpr hx)).mpr h

theorem round_mono (hp : 1 ≤ p) (h : x ≤ y) : round p x ≤ round p y := by
  rcases le_or_gt x 0 with hx | hx
  · rcases le_or_gt 0 y with hy | hy
    · exact round_le_round_of_between hx hy ⟨0, by simp⟩ ⟨0, by simp⟩
    · -- Below zero the larger number has the smaller unit.
      have hx0 : x ≠ 0 := (h.trans_lt hy).ne
      have habsx : |x| = -x := abs_of_nonpos hx
      have habsy : |y| = -y := abs_of_neg hy
      have hlog := Int.log_mono_right (b := 2) (abs_pos.mpr hy.ne) (by linarith : |y| ≤ |x|)
      rcases hlog.eq_or_lt with heq | hlt
      · exact round_le_round_of_ulp (congrArg (fun k : ℤ => (2 : ℚ) ^ (k + 1 - p)) heq.symm) h
      · obtain ⟨m, hm⟩ := zpow_eq_mul_ulp (p := p) (x := x) (k := Int.log 2 |x|) (by omega)
        obtain ⟨n, hn⟩ := zpow_eq_mul_ulp (p := p) (x := y) (k := Int.log 2 |x|) (by omega)
        refine round_le_round_of_between (c := -2 ^ Int.log 2 |x|) ?_ ?_ ⟨-m, ?_⟩ ⟨-n, ?_⟩
        · have hlow := zpow_log_le_abs hx0
          linarith
        · have hhigh := abs_lt_zpow hy.ne hlt
          linarith
        · rw [hm, Int.cast_neg, neg_mul]
        · rw [hn, Int.cast_neg, neg_mul]
  · have hy : 0 < y := hx.trans_le h
    have habsx : |x| = x := abs_of_pos hx
    have habsy : |y| = y := abs_of_pos hy
    have hlog := Int.log_mono_right (b := 2) (abs_pos.mpr hx.ne') (by linarith : |x| ≤ |y|)
    rcases hlog.eq_or_lt with heq | hlt
    · exact round_le_round_of_ulp (congrArg (fun k : ℤ => (2 : ℚ) ^ (k + 1 - p)) heq) h
    · refine round_le_round_of_between (c := 2 ^ Int.log 2 |y|) ?_ ?_ (zpow_eq_mul_ulp (by omega))
        (zpow_eq_mul_ulp (by omega))
      · have hhigh := abs_lt_zpow hx.ne' hlt
        linarith
      · have hlow := zpow_log_le_abs hy.ne'
        linarith

/-- An integer of no more bits is kept. -/
theorem round_intCast {n : ℤ} (h : |n| < 2 ^ p) : round p n = n := by
  rcases eq_or_ne n 0 with rfl | hn
  · unfold round
    rw [Int.cast_zero, zero_div, ← Int.cast_zero, roundHalfEven_intCast, Int.cast_zero, zero_mul]
  · have hn0 : (n : ℚ) ≠ 0 := by exact_mod_cast hn
    have hbits : Int.log 2 |(n : ℚ)| < p := by
      refine (Int.lt_zpow_iff_log_lt (by decide) (abs_pos.mpr hn0)).mp ?_
      rw [zpow_natCast]
      exact_mod_cast h
    obtain ⟨m, hm⟩ := zpow_eq_mul_ulp (p := p) (x := n) (k := 0) (by omega)
    have heq : (n : ℚ) = ((n * m : ℤ) : ℚ) * ulp p n := by
      rw [Int.cast_mul, mul_assoc, ← hm, zpow_zero, mul_one]
    have hround := round_eq_of_near (p := p) (x := n) (n * m) (by
      rw [← heq, sub_self, abs_zero]
      exact half_pos (ulp_pos p n))
    rw [hround, ← heq]

end Binary

/-- The double nearest to a number. -/
def toDouble (q : ℚ) : ℚ := Binary.round 53 q

end Dibs
