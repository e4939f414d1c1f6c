import Mathlib.Data.Nat.Find
import Dibs.Models.Validation

/-!
# Instants in JSON

A `datetime` in UTC as `model_dump_json` writes it: the date and the clock time, the microseconds when
there are any, and a `Z`. `isoformat` computes the date with the calendar of `datetime`: the last year
that begins before a day, and the last month of that year that does.

Every instant that a `datetime` can hold is read back (`parseInstant_isoformat`).
-/

namespace Dibs

/-- An instant in the range of `datetime`, from `datetime.min` to `datetime.max` in UTC. -/
def IsDatetime (t : Time) : Prop := -62135596800000000 ≤ t ∧ t ≤ 253402300799999999

instance (t : Time) : Decidable (IsDatetime t) := inferInstanceAs (Decidable (_ ∧ _))

/-! ## The calendar -/

/-- The ordinal of a date, `date.toordinal`. -/
def ymdOrdinal (year month day : ℕ) : ℕ := daysBeforeYear year + daysBeforeMonth year month + day

/-- The ordinal of 1970-01-01. -/
def epochOrdinal : ℕ := 719163

/-- The last number up to a bound whose start lies before a day. -/
def lastBefore (start : ℕ → ℕ) (day bound : ℕ) : ℕ := Nat.findGreatest (fun k => start k < day) bound

/-- The year of an ordinal. -/
def yearOf (ordinal : ℕ) : ℕ := lastBefore daysBeforeYear ordinal 9999

/-- The month of a day of a year. -/
def monthOf (year dayOfYear : ℕ) : ℕ := lastBefore (daysBeforeMonth year) dayOfYear 12

/-- A day lies between the start of the last number that starts before it and the next start. -/
theorem lastBefore_spec {start : ℕ → ℕ} {day bound : ℕ} (hbound : 1 ≤ bound) (hlow : start 1 < day)
    (hhigh : day ≤ start (bound + 1)) :
    NumberWithin 1 bound (lastBefore start day bound) ∧ start (lastBefore start day bound) < day ∧
      day ≤ start (lastBefore start day bound + 1) := by
  have hle : lastBefore start day bound ≤ bound := Nat.findGreatest_le bound
  have hone : 1 ≤ lastBefore start day bound := Nat.le_findGreatest hbound hlow
  refine ⟨⟨hone, hle⟩, Nat.findGreatest_spec (P := fun k => start k < day) hbound hlow, ?_⟩
  rcases hle.lt_or_eq with hlt | heq
  · exact not_lt.mp (Nat.findGreatest_is_greatest (P := fun k => start k < day) (Nat.lt_succ_self _) hlt)
  · rwa [heq]

/-- The next month begins when a month is over. -/
theorem daysBeforeMonth_succ (year : ℕ) {month : ℕ} (h : 1 ≤ month) :
    daysBeforeMonth year (month + 1) = daysBeforeMonth year month + daysInMonth year month := by
  obtain ⟨k, rfl⟩ := Nat.exists_eq_add_of_le' h
  simp only [daysBeforeMonth, Nat.add_sub_cancel, List.range'_1_concat, List.foldl_append,
    List.foldl_cons, List.foldl_nil, Nat.add_comm 1 k]

/-- The days of the months of a year together. -/
theorem daysBeforeMonth_thirteen (year : ℕ) :
    daysBeforeMonth year 13 =
      if year % 4 = 0 ∧ (year % 100 ≠ 0 ∨ year % 400 = 0) then 366 else 365 := by
  have hmonths : List.range' 1 (13 - 1) = [1, 2, 3, 4, 5, 6, 7, 8, 9, 10, 11, 12] := by decide
  unfold daysBeforeMonth
  rw [hmonths]
  simp only [List.foldl_cons, List.foldl_nil, daysInMonth]
  split <;> rfl

/-- The next year begins when the months of a year are over. -/
theorem daysBeforeYear_succ {year : ℕ} (h : 1 ≤ year) :
    daysBeforeYear (year + 1) = daysBeforeYear year + daysBeforeMonth year 13 := by
  obtain ⟨k, rfl⟩ := Nat.exists_eq_add_of_le' h
  rw [daysBeforeMonth_thirteen]
  have hcentury : 400 ∣ k + 1 → 100 ∣ k + 1 := fun h => Nat.dvd_trans (by decide) h
  have hfour : 100 ∣ k + 1 → 4 ∣ k + 1 := fun h => Nat.dvd_trans (by decide) h
  have hleap : k / 100 ≤ k * 365 + k / 4 := le_trans (Nat.div_le_self k 100) (by omega)
  simp only [daysBeforeYear, Nat.add_sub_cancel, Nat.succ_div, ← Nat.dvd_iff_mod_eq_zero, ne_eq]
  generalize k / 4 = a, k / 100 = b, k / 400 = c at *
  by_cases h400 : 400 ∣ k + 1
  · simp only [h400, hcentury h400, hfour (hcentury h400), if_true, true_and, or_true]
    omega
  · by_cases h100 : 100 ∣ k + 1
    · simp only [h400, h100, hfour h100, if_true, if_false, true_and, not_true, or_self]
      omega
    · by_cases h4 : 4 ∣ k + 1
      · simp only [h400, h100, h4, if_true, if_false, true_and, not_false_eq_true, or_false]
        omega
      · simp only [h400, h100, h4, if_false, false_and]
        omega

/-- A date of the calendar. -/
structure IsDate (year month day : ℕ) : Prop where
  yearWithin : NumberWithin 1 9999 year
  monthWithin : NumberWithin 1 12 month
  dayWithin : NumberWithin 1 (daysInMonth year month) day

instance (year month day : ℕ) : Decidable (IsDate year month day) :=
  decidable_of_iff (NumberWithin 1 9999 year ∧ NumberWithin 1 12 month ∧
      NumberWithin 1 (daysInMonth year month) day)
    ⟨fun ⟨a, b, c⟩ => ⟨a, b, c⟩, fun ⟨a, b, c⟩ => ⟨a, b, c⟩⟩

/-- The year, the month and the day of an ordinal. -/
def dateOf (ordinal : ℕ) : ℕ × ℕ × ℕ :=
  let year := yearOf ordinal
  let dayOfYear := ordinal - daysBeforeYear year
  let month := monthOf year dayOfYear
  (year, month, dayOfYear - daysBeforeMonth year month)

/-- The date of an ordinal is a date, and its ordinal is the one that it was computed from. -/
theorem dateOf_spec {ordinal : ℕ} (h : NumberWithin 1 3652059 ordinal) :
    IsDate (dateOf ordinal).1 (dateOf ordinal).2.1 (dateOf ordinal).2.2 ∧
      ymdOrdinal (dateOf ordinal).1 (dateOf ordinal).2.1 (dateOf ordinal).2.2 = ordinal := by
  have hend : daysBeforeYear (9999 + 1) = 3652059 := by decide
  obtain ⟨hyear, hstart, hnext⟩ : NumberWithin 1 9999 (yearOf ordinal) ∧
      daysBeforeYear (yearOf ordinal) < ordinal ∧ ordinal ≤ daysBeforeYear (yearOf ordinal + 1) :=
    lastBefore_spec (by decide) h.1 (hend ▸ h.2)
  rw [daysBeforeYear_succ hyear.1] at hnext
  set year := yearOf ordinal with hy
  set dayOfYear := ordinal - daysBeforeYear year with hd
  obtain ⟨hmonth, hfirst, hlast⟩ : NumberWithin 1 12 (monthOf year dayOfYear) ∧
      daysBeforeMonth year (monthOf year dayOfYear) < dayOfYear ∧
      dayOfYear ≤ daysBeforeMonth year (monthOf year dayOfYear + 1) :=
    lastBefore_spec (by decide) (Nat.sub_pos_of_lt hstart)
      (show dayOfYear ≤ daysBeforeMonth year 13 by omega)
  rw [daysBeforeMonth_succ year hmonth.1] at hlast
  change IsDate year (monthOf year dayOfYear) (dayOfYear - daysBeforeMonth year (monthOf year dayOfYear)) ∧
    ymdOrdinal year (monthOf year dayOfYear)
      (dayOfYear - daysBeforeMonth year (monthOf year dayOfYear)) = ordinal
  refine ⟨⟨hyear, hmonth, by omega, by omega⟩, ?_⟩
  unfold ymdOrdinal
  omega

/-! ## The text of an instant -/

/-- A number in a field of a fixed width, `%0{width}d`. -/
def padded : ℕ → ℕ → List Char
  | 0, _ => []
  | width + 1, n => padded width (n / 10) ++ [Nat.digitChar (n % 10)]

/-- `datetime.isoformat` of an instant in UTC, as `model_dump_json` writes it. -/
def isoformat (t : Time) : String :=
  let date := dateOf (t / 86400000000 + epochOrdinal).toNat
  let micros := (t % 86400000000).toNat
  let fraction := if micros % 1000000 = 0 then [] else '.' :: padded 6 (micros % 1000000)
  String.ofList (padded 4 date.1 ++ '-' :: (padded 2 date.2.1 ++ '-' :: (padded 2 date.2.2 ++ 'T' ::
    (padded 2 (micros / 3600000000) ++ ':' :: (padded 2 (micros / 60000000 % 60) ++ ':' ::
      (padded 2 (micros / 1000000 % 60) ++ (fraction ++ ['Z'])))))))

/-- A number in a field of a fixed width with a separator after it, and what follows. -/
def readField (width : ℕ) (separator : Char) (cs : List Char) : Option (ℕ × List Char) :=
  if (cs.drop width).head? = some separator then
    (asciiNumber (cs.take width)).map fun n => (n, cs.drop (width + 1))
  else none

/-- The microseconds of the seconds with their fraction, up to the end. -/
def readSeconds (cs : List Char) : Option (ℕ × List Char) :=
  match readField 2 'Z' cs with
  | some (second, r) => some (second * 1000000, r)
  | none => do
    let (second, r) ← readField 2 '.' cs
    let (micro, r) ← readField 6 'Z' r
    return (second * 1000000 + micro, r)

/-- The instant of a text in the form that `isoformat` writes. -/
def parseInstant (text : String) : Option Time := do
  let (year, r) ← readField 4 '-' text.toList
  let (month, r) ← readField 2 '-' r
  let (day, r) ← readField 2 'T' r
  let (hour, r) ← readField 2 ':' r
  let (minute, r) ← readField 2 ':' r
  let (micros, r) ← readSeconds r
  if IsDate year month day ∧ hour < 24 ∧ minute < 60 ∧ micros < 60000000 ∧ r = [] then
    some ((ymdOrdinal year month day - epochOrdinal : ℤ) * 86400000000 +
      (hour * 3600000000 + minute * 60000000 + micros : ℕ))
  else none

theorem length_padded (width n : ℕ) : (padded width n).length = width := by
  induction width generalizing n with
  | zero => rfl
  | succ width ih => rw [padded, List.length_append, ih]; rfl

theorem asciiNumber_append {digits : List Char} {n d : ℕ} (h : asciiNumber digits = some n) (hd : d < 10) :
    asciiNumber (digits ++ [Nat.digitChar d]) = some (10 * n + d) := by
  have hdigit : ∀ d < 10, (Nat.digitChar d).isDigit = true ∧ (Nat.digitChar d).toNat - 0x30 = d := by decide
  unfold asciiNumber at h ⊢
  split at h
  next hall =>
    have hn := Option.some.inj h
    rw [if_pos (by simp [hall, hdigit d hd]), List.foldl_append, hn]
    simp [hdigit d hd]
  next => contradiction

/-- A field that is wide enough holds the number. -/
theorem asciiNumber_padded (width : ℕ) {n : ℕ} (h : n < 10 ^ width) :
    asciiNumber (padded width n) = some n := by
  induction width generalizing n with
  | zero =>
    obtain rfl : n = 0 := by simpa using h
    rfl
  | succ width ih =>
    have hdiv : n / 10 < 10 ^ width := by
      rw [pow_succ] at h
      omega
    rw [padded, asciiNumber_append (ih hdiv) (Nat.mod_lt n (by decide))]
    congr 1
    omega

theorem readField_padded (width : ℕ) (separator : Char) {n : ℕ} (h : n < 10 ^ width) (r : List Char) :
    readField width separator (padded width n ++ separator :: r) = some (n, r) := by
  have hdrop : (padded width n ++ separator :: r).drop width = separator :: r :=
    List.drop_left' (length_padded width n)
  have htake : (padded width n ++ separator :: r).take width = padded width n :=
    List.take_left' (length_padded width n)
  unfold readField
  rw [← List.drop_drop, hdrop, htake, asciiNumber_padded width h,
    List.head?_cons, if_pos rfl]
  rfl

/-- No field of two digits is read where another separator follows. -/
theorem readField_ne {width n : ℕ} {separator other : Char} (h : other ≠ separator) (r : List Char) :
    readField width separator (padded width n ++ other :: r) = none := by
  have hdrop : (padded width n ++ other :: r).drop width = other :: r :=
    List.drop_left' (length_padded width n)
  unfold readField
  rw [hdrop, if_neg (by simpa using h)]

/-- Seconds with the fraction that `isoformat` gives them. -/
theorem readSeconds_padded {second micro : ℕ} (hs : second < 60) (hm : micro < 1000000) :
    readSeconds (padded 2 second ++
        ((if micro = 0 then [] else '.' :: padded 6 micro) ++ ['Z'])) =
      some (second * 1000000 + micro, []) := by
  unfold readSeconds
  split_ifs with h
  · rw [List.nil_append, readField_padded 2 'Z' (by omega), h, Nat.add_zero]
  · rw [List.cons_append, readField_ne (by decide), readField_padded 2 '.' (by omega)]
    simp only [Option.bind_eq_bind, Option.bind_some, readField_padded 6 'Z' hm, Option.pure_def]

/-- No month has a hundred days. -/
theorem daysInMonth_lt (year month : ℕ) : daysInMonth year month < 100 := by
  have hall : ∀ february < 30, ∀ d ∈ [31, february, 31, 30, 31, 30, 31, 31, 30, 31, 30, 31], d < 100 := by
    decide
  unfold daysInMonth
  rw [List.getD_eq_getElem?_getD]
  cases hget : [31, _, 31, 30, 31, 30, 31, 31, 30, 31, 30, 31][month - 1]? with
  | none => decide
  | some d => exact hall _ (by split <;> decide) d (List.mem_of_getElem? hget)

/-- Every instant that a `datetime` can hold is read back. -/
theorem parseInstant_isoformat {t : ℤ} (h : IsDatetime t) : parseInstant (isoformat t) = some t := by
  have hlow : -62135596800000000 ≤ t := h.1
  have hhigh : t ≤ 253402300799999999 := h.2
  have hepoch : (epochOrdinal : ℤ) = 719163 := rfl
  obtain ⟨ordinal, hordinal⟩ : ∃ n, n = (t / 86400000000 + epochOrdinal).toNat := ⟨_, rfl⟩
  obtain ⟨micros, hmicros⟩ : ∃ n, n = (t % 86400000000).toNat := ⟨_, rfl⟩
  have hday : (ordinal : ℤ) = t / 86400000000 + epochOrdinal := by omega
  have hrest : (micros : ℤ) = t % 86400000000 := by omega
  have hwithin : NumberWithin 1 3652059 ordinal := ⟨by omega, by omega⟩
  obtain ⟨hdate, hback⟩ := dateOf_spec hwithin
  have hyear := hdate.yearWithin.2
  have hmonth := hdate.monthWithin.2
  have hdays := lt_of_le_of_lt hdate.dayWithin.2 (daysInMonth_lt _ _)
  have hvalue : ((ordinal : ℤ) - epochOrdinal) * 86400000000 +
      ((micros / 3600000000 * 3600000000 + micros / 60000000 % 60 * 60000000 +
        (micros / 1000000 % 60 * 1000000 + micros % 1000000) : ℕ) : ℤ) = t := by omega
  unfold isoformat parseInstant
  simp only [← hordinal, ← hmicros, String.toList_ofList, Option.bind_eq_bind, Option.bind_some,
    readField_padded 4 '-' (show (dateOf ordinal).1 < 10 ^ 4 by omega),
    readField_padded 2 '-' (show (dateOf ordinal).2.1 < 10 ^ 2 by omega),
    readField_padded 2 'T' (show (dateOf ordinal).2.2 < 10 ^ 2 by omega),
    readField_padded 2 ':' (show micros / 3600000000 < 10 ^ 2 by omega),
    readField_padded 2 ':' (show micros / 60000000 % 60 < 10 ^ 2 by omega),
    readSeconds_padded (show micros / 1000000 % 60 < 60 by omega) (show micros % 1000000 < 1000000 by omega)]
  rw [if_pos ⟨hdate, by omega, by omega, by omega, trivial⟩, hback]
  exact congrArg some hvalue

end Dibs
