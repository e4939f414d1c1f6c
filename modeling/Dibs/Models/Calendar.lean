import Dibs.Models.Instants

/-!
# Local dates and clock times

Dates are ordinals, clock times minutes of the day, and both have the texts that the source compares and
parses: `YYYY-MM-DD` and `HH:MM`. Texts of one width in decimal digits are ordered as the numbers that they
write (`padded_lt_iff`), which is what every comparison of clock times in the source relies on.
-/

namespace Dibs

/-- A `tzinfo`, as far as the services ask it. Days are ordinals. -/
structure Zone where
  /-- `instant.astimezone(timezone).date()`. -/
  localDate : Time → ℕ
  /-- `datetime.combine(day, time.min, tzinfo=timezone).astimezone(UTC)`. -/
  midnight : ℕ → Time

/-- `UTC`. -/
def Zone.utc : Zone where
  localDate t := (t / 86400000000 + 719163).toNat
  midnight day := (day - 719163 : ℤ) * 86400000000

/-- The ordinal of `date.max`. -/
def maxOrdinal : ℕ := 3652059

/-- `date.isoformat`. -/
def isoDate (ordinal : ℕ) : String :=
  let date := dateOf ordinal
  String.ofList (padded 4 date.1 ++ '-' :: (padded 2 date.2.1 ++ '-' :: padded 2 date.2.2))

/-- `date.weekday`: Monday is 0. -/
def weekdayOf (ordinal : ℕ) : Fin 7 := ⟨(ordinal + 6) % 7, Nat.mod_lt _ (by decide)⟩

/-- `_from_minutes`, and `strftime("%H:%M")` of a clock time. -/
def fromMinutes (value : ℕ) : String :=
  String.ofList (padded 2 (value / 60) ++ ':' :: padded 2 (value % 60))

/-- The decimal digits of Unicode 16, which the digits of `int` do not include. -/
def newerZeroDigits : List ℕ := [0x10d40, 0x116d0, 0x116da, 0x11bf0, 0x16130, 0x16d70, 0x1ccf0, 0x1e5f1]

/-- The value of a decimal digit, as `int` reads it. -/
def digitValue (c : Char) : Option ℕ :=
  (zeroDigits.find? fun first => !newerZeroDigits.contains first && decide (first ≤ c.toNat) &&
    decide (c.toNat < first + 10)).map fun first => c.toNat - first

/-- `int` of a text of decimal digits. -/
def decimalNumber (digits : List Char) : Option ℕ :=
  digits.foldlM (fun n c => (digitValue c).map (10 * n + ·)) 0

/-- `_to_minutes`, for a text in the form of an `HourMinute`. -/
def toMinutes (value : String) : Option ℕ := do
  let hours ← decimalNumber (value.toList.take 2)
  let minutes ← decimalNumber (value.toList.drop 3)
  return hours * 60 + minutes

/-! ## Dates -/

/-- The date of a text is the one that it was written for. -/
theorem dateOrdinal_isoDate {ordinal : ℕ} (h : NumberWithin 1 maxOrdinal ordinal) :
    dateOrdinal (isoDate ordinal) = some ordinal := by
  obtain ⟨hdate, hback⟩ := dateOf_spec h
  obtain ⟨⟨hyear, hyear'⟩, hmonth, hday⟩ := hdate
  have hdays := lt_of_le_of_lt hday.2 (daysInMonth_lt _ _)
  have htake : ∀ (n : ℕ) (r : List Char), (padded 4 n ++ r).take 4 = padded 4 n := fun n r =>
    List.take_left' (length_padded 4 n)
  have hmonthText : (((isoDate ordinal).toList.drop 5).take 2) = padded 2 (dateOf ordinal).2.1 := by
    simp only [isoDate, String.toList_ofList]
    rw [show (5 : ℕ) = 4 + 1 from rfl, ← List.drop_drop, List.drop_left' (length_padded 4 _)]
    exact List.take_left' (length_padded 2 _)
  have hdayText : (((isoDate ordinal).toList.drop 8).take 2) = padded 2 (dateOf ordinal).2.2 := by
    simp only [isoDate, String.toList_ofList]
    rw [show (8 : ℕ) = 4 + (1 + (2 + 1)) from rfl, ← List.drop_drop, List.drop_left' (length_padded 4 _),
      ← List.drop_drop, List.drop_one, List.tail_cons, ← List.drop_drop,
      List.drop_left' (length_padded 2 _), List.drop_one, List.tail_cons]
    exact List.take_of_length_le (length_padded 2 _).le
  unfold dateOrdinal
  dsimp only
  rw [hmonthText, hdayText]
  simp only [isoDate, String.toList_ofList, htake, Option.bind_eq_bind, Option.bind_some,
    asciiNumber_padded 4 (show (dateOf ordinal).1 < 10 ^ 4 by omega),
    asciiNumber_padded 2 (show (dateOf ordinal).2.1 < 10 ^ 2 by have := hmonth.2; omega),
    asciiNumber_padded 2 (show (dateOf ordinal).2.2 < 10 ^ 2 by omega)]
  rw [if_pos ⟨hyear, hmonth, hday⟩]
  exact congrArg some hback

/-! ## Clock times -/

/-- Of two texts with heads of one length, the heads decide first. -/
theorem append_lt_append_iff {l l' : List Char} (hlength : l.length = l'.length) (r r' : List Char) :
    l ++ r < l' ++ r' ↔ l < l' ∨ l = l' ∧ r < r' := by
  induction l generalizing l' with
  | nil =>
    obtain rfl : l' = [] := List.length_eq_zero_iff.mp hlength.symm
    simp
  | cons c l ih =>
    cases l' with
    | nil => contradiction
    | cons c' l' =>
      rw [List.cons_append, List.cons_append, List.cons_lt_cons_iff, List.cons_lt_cons_iff,
        ih (Nat.succ_injective hlength)]
      simp only [List.cons.injEq]
      tauto

/-- Digits are ordered as their values. -/
theorem digitChar_lt_iff {a b : ℕ} (ha : a < 10) (hb : b < 10) :
    Nat.digitChar a < Nat.digitChar b ↔ a < b := by
  have hall : ∀ a < 10, ∀ b < 10, (Nat.digitChar a < Nat.digitChar b ↔ a < b) := by decide
  exact hall a ha b hb

/-- Fields of one width are ordered as the numbers in them. -/
theorem padded_lt_iff (width : ℕ) {a b : ℕ} (ha : a < 10 ^ width) (hb : b < 10 ^ width) :
    padded width a < padded width b ↔ a < b := by
  induction width generalizing a b with
  | zero =>
    obtain rfl : a = 0 := by simpa using ha
    obtain rfl : b = 0 := by simpa using hb
    simp
  | succ width ih =>
    have hadiv : a / 10 < 10 ^ width := by rw [pow_succ] at ha; omega
    have hbdiv : b / 10 < 10 ^ width := by rw [pow_succ] at hb; omega
    have hheads : padded width (a / 10) = padded width (b / 10) ↔ a / 10 = b / 10 := by
      refine ⟨fun h => ?_, fun h => by rw [h]⟩
      have hnumber := asciiNumber_padded width hadiv
      rw [h, asciiNumber_padded width hbdiv] at hnumber
      exact (Option.some.inj hnumber).symm
    rw [padded, padded, append_lt_append_iff (by simp [length_padded]), ih hadiv hbdiv, hheads]
    simp only [List.cons_lt_cons_iff, digitChar_lt_iff (Nat.mod_lt a (by decide)) (Nat.mod_lt b (by decide))]
    simp only [List.not_lt_nil, and_false, or_false]
    omega

/-- Clock times are ordered as the minutes that they write. -/
theorem fromMinutes_lt_iff {a b : ℕ} (ha : a < 6000) (hb : b < 6000) :
    (fromMinutes a).toList < (fromMinutes b).toList ↔ a < b := by
  have hheads : padded 2 (a / 60) = padded 2 (b / 60) ↔ a / 60 = b / 60 := by
    refine ⟨fun h => ?_, fun h => by rw [h]⟩
    have hnumber := asciiNumber_padded 2 (show a / 60 < 10 ^ 2 by omega)
    rw [h, asciiNumber_padded 2 (show b / 60 < 10 ^ 2 by omega)] at hnumber
    exact (Option.some.inj hnumber).symm
  simp only [fromMinutes, String.toList_ofList]
  rw [append_lt_append_iff (by simp [length_padded]), padded_lt_iff 2 (by omega) (by omega), hheads,
    List.cons_lt_cons_iff, padded_lt_iff 2 (by omega) (by omega)]
  simp only [lt_irrefl, false_or, true_and]
  omega

/-- Clock times are ordered as the minutes that they write. -/
theorem fromMinutes_le_iff {a b : ℕ} (ha : a < 6000) (hb : b < 6000) :
    (fromMinutes a).toList ≤ (fromMinutes b).toList ↔ a ≤ b := by
  rw [← not_lt, ← not_lt, fromMinutes_lt_iff hb ha]

/-- The digits of ASCII have their values. -/
theorem digitValue_digitChar {d : ℕ} (h : d < 10) : digitValue (Nat.digitChar d) = some d := by
  have hall : ∀ d < 10, digitValue (Nat.digitChar d) = some d := by decide
  exact hall d h

/-- A field that is wide enough holds the number that `int` reads. -/
theorem decimalNumber_padded (width : ℕ) {n : ℕ} (h : n < 10 ^ width) :
    decimalNumber (padded width n) = some n := by
  induction width generalizing n with
  | zero =>
    obtain rfl : n = 0 := by simpa using h
    rfl
  | succ width ih =>
    have hdiv : n / 10 < 10 ^ width := by
      rw [pow_succ] at h
      omega
    unfold decimalNumber at ih ⊢
    rw [padded, List.foldlM_append, ih hdiv]
    simp only [List.foldlM_cons, List.foldlM_nil, digitValue_digitChar (Nat.mod_lt n (by decide)),
      Option.map_some, Option.bind_eq_bind, Option.bind_some, Option.pure_def]
    congr 1
    omega

/-- A clock time is read back. -/
@[simp]
theorem toMinutes_fromMinutes {value : ℕ} (h : value < 6000) : toMinutes (fromMinutes value) = some value := by
  have hhours : (fromMinutes value).toList.take 2 = padded 2 (value / 60) := by
    simp only [fromMinutes, String.toList_ofList]
    exact List.take_left' (length_padded 2 _)
  have hminutes : (fromMinutes value).toList.drop 3 = padded 2 (value % 60) := by
    simp only [fromMinutes, String.toList_ofList]
    rw [show (3 : ℕ) = 2 + 1 from rfl, ← List.drop_drop, List.drop_left' (length_padded 2 _)]
    rfl
  unfold toMinutes
  rw [hhours, hminutes, decimalNumber_padded 2 (by omega), decimalNumber_padded 2 (by omega)]
  simp only [Option.bind_eq_bind, Option.bind_some, Option.pure_def]
  congr 1
  omega

/-- Two clock times with one text are one. -/
theorem fromMinutes_inj {a b : ℕ} (ha : a < 6000) (hb : b < 6000) (h : fromMinutes a = fromMinutes b) :
    a = b := by
  have hread := toMinutes_fromMinutes ha
  rw [h, toMinutes_fromMinutes hb] at hread
  exact (Option.some.inj hread).symm

/-! ## The form of a clock time -/

theorem padded_two (n : ℕ) : padded 2 n = [Nat.digitChar (n / 10 % 10), Nat.digitChar (n % 10)] := rfl

/-- The form of an `HourMinute` on its characters. -/
theorem isHourMinute_iff {s : String} : isHourMinute s = true ↔ ∃ a b c d, s.toList = [a, b, ':', c, d] ∧
    ((a = '0' ∨ a = '1') ∧ isDecimalDigit b = true ∨ a = '2' ∧ '0' ≤ b ∧ b ≤ '3') ∧
    ('0' ≤ c ∧ c ≤ '5') ∧ isDecimalDigit d = true := by
  unfold isHourMinute matchesTests
  constructor
  · intro h
    match hs : s.toList with
    | [a, b, colon, c, d] =>
      simp only [hs] at h
      simp at h
      have hcolon : colon = ':' := by
        rcases h with h | h
        · exact h.2.2.1
        · exact h.2.2.1
      subst hcolon
      refine ⟨a, b, c, d, rfl, ?_, ?_, ?_⟩ <;> tauto
    | [] | [_] | [_, _] | [_, _, _] | [_, _, _, _] | _ :: _ :: _ :: _ :: _ :: _ :: _ => simp [hs] at h
  · rintro ⟨a, b, c, d, hs, hhours, hminutes, hd⟩
    simp [hs, hminutes, hd]
    tauto

/-- The clock times of a day have the form. -/
theorem isHourMinute_fromMinutes {value : ℕ} (h : value < 1440) : isHourMinute (fromMinutes value) = true := by
  have hhours : ∀ hours < 24, ((Nat.digitChar (hours / 10 % 10) = '0' ∨ Nat.digitChar (hours / 10 % 10) = '1') ∧
      isDecimalDigit (Nat.digitChar (hours % 10)) = true ∨ Nat.digitChar (hours / 10 % 10) = '2' ∧
      '0' ≤ Nat.digitChar (hours % 10) ∧ Nat.digitChar (hours % 10) ≤ '3') := by decide
  have hminutes : ∀ minutes < 60, ('0' ≤ Nat.digitChar (minutes / 10 % 10) ∧
      Nat.digitChar (minutes / 10 % 10) ≤ '5') ∧ isDecimalDigit (Nat.digitChar (minutes % 10)) = true := by
    decide
  refine isHourMinute_iff.mpr ⟨_, _, _, _, ?_, hhours (value / 60) (by omega), hminutes (value % 60) (by omega)⟩
  simp only [fromMinutes, String.toList_ofList, padded_two]
  rfl

/-- A character between two digits of ASCII is a digit. -/
theorem exists_digitChar {c : Char} {low high : ℕ} (hhigh : high < 10) (hl : 0x30 + low ≤ c.toNat)
    (hh : c.toNat ≤ 0x30 + high) : ∃ n, low ≤ n ∧ n ≤ high ∧ c = Nat.digitChar n := by
  have hchar : ∀ n < 10, Char.ofNat (0x30 + n) = Nat.digitChar n := by decide
  refine ⟨c.toNat - 0x30, by omega, by omega, ?_⟩
  rw [← hchar _ (by omega), Nat.add_sub_cancel' (by omega), Char.ofNat_toNat]

/-- The decimal digits of ASCII. -/
theorem exists_digitChar_of_isDecimalDigit {c : Char} (hascii : c.toNat < 128)
    (h : isDecimalDigit c = true) : ∃ n ≤ 9, c = Nat.digitChar n := by
  have hrange : 0x30 ≤ c.toNat ∧ c.toNat < 0x30 + 10 := by
    obtain ⟨first, hfirst, hwithin⟩ := List.any_eq_true.mp h
    have hleast : ∀ first ∈ zeroDigits, first = 0x30 ∨ 128 ≤ first := by decide
    simp only [Bool.and_eq_true, decide_eq_true_eq] at hwithin
    rcases hleast first hfirst with rfl | hlarge
    · exact hwithin
    · omega
  obtain ⟨n, -, hn, hc⟩ := @exists_digitChar c 0 9 (by decide) hrange.1 (by omega)
  exact ⟨n, hn, hc⟩

/-- A text of ASCII in the form is a clock time of the day. -/
theorem exists_fromMinutes {s : String} (h : isHourMinute s = true)
    (hascii : ∀ c ∈ s.toList, c.toNat < 128) : ∃ value < 1440, s = fromMinutes value := by
  obtain ⟨a, b, c, d, hs, hhours, ⟨hclow, hchigh⟩, hd⟩ := isHourMinute_iff.mp h
  obtain ⟨hours, hlt, ha, hb⟩ : ∃ hours < 24, a = Nat.digitChar (hours / 10 % 10) ∧
      b = Nat.digitChar (hours % 10) := by
    rcases hhours with ⟨ha, hb⟩ | ⟨ha, hlow, hhigh⟩
    · obtain ⟨n, hn, rfl⟩ := exists_digitChar_of_isDecimalDigit (hascii b (by simp [hs])) hb
      rcases ha with rfl | rfl
      · exact ⟨n, by omega, by rw [show n / 10 = 0 by omega]; rfl, by rw [Nat.mod_eq_of_lt (by omega)]⟩
      · exact ⟨10 + n, by omega, by rw [show (10 + n) / 10 = 1 by omega]; rfl, by
          rw [show (10 + n) % 10 = n by omega]⟩
    · obtain ⟨n, -, hn, rfl⟩ := @exists_digitChar b 0 3 (by decide) hlow hhigh
      exact ⟨20 + n, by omega, by rw [show (20 + n) / 10 = 2 by omega, ha]; rfl, by
        rw [show (20 + n) % 10 = n by omega]⟩
  obtain ⟨tens, -, htens, hc⟩ := @exists_digitChar c 0 5 (by decide) hclow hchigh
  obtain ⟨ones, hones, hd⟩ := exists_digitChar_of_isDecimalDigit (hascii d (by simp [hs])) hd
  refine ⟨hours * 60 + (tens * 10 + ones), by omega, String.toList_injective ?_⟩
  rw [hs, fromMinutes, String.toList_ofList, padded_two, padded_two,
    show (hours * 60 + (tens * 10 + ones)) / 60 = hours by omega,
    show (hours * 60 + (tens * 10 + ones)) % 60 = tens * 10 + ones by omega,
    show (tens * 10 + ones) / 10 % 10 = tens by omega, show (tens * 10 + ones) % 10 = ones by omega, ha, hb,
    hc, hd]
  rfl
end Dibs
