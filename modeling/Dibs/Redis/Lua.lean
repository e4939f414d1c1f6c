import Mathlib.Data.Nat.Log
import Mathlib.Tactic.Ring
import Dibs.Models.Watch

/-!
# Numbers and claim values in the Lua scripts

A number in a Redis script is a double, and a script turns it into text with the format `%.14g`. So
a whole number below `10^14` is written as its decimal numeral and a greater one in scientific
notation with fourteen digits. `eq_of_luaToString` is what the scripts' revision compare rests on: a
text that is a decimal numeral names the very number it was written from.

A claim key holds `owner|token|expires_ms`. `parseClaim` is the local function `parse_claim` of the
scripts, and `parseClaim_claimValue` says that it recovers what was written, for an owner without a
bar.
-/

namespace Dibs

/-- A quotient rounded to the nearest whole number, ties to even. -/
def divRound (n d : ℕ) : ℕ :=
  if 2 * (n % d) < d ∨ 2 * (n % d) = d ∧ n / d % 2 = 0 then n / d else n / d + 1

/-- The double nearest to a whole number: 53 significant bits. -/
def double (n : ℕ) : ℕ :=
  if n < 2 ^ 53 then n else divRound n (2 ^ (n.log2 - 52)) * 2 ^ (n.log2 - 52)

/-- The fourteen significant digits of `%.14g` in scientific notation, with the trailing zeros of the
fraction dropped. -/
def scientific (n : ℕ) : String :=
  let e := (Nat.toDigits 10 n).length - 1
  let m := divRound n (10 ^ (e - 13))
  let rounded := if m = 10 ^ 14 then (10 ^ 13, e + 1) else (m, e)
  let digits := Nat.toDigits 10 rounded.1
  let fraction := (digits.tail.reverse.dropWhile (· = '0')).reverse
  String.ofList (digits.take 1 ++ (if fraction = [] then [] else '.' :: fraction) ++
    'e' :: '+' :: (toString rounded.2).toList)

/-- The text of a natural number in a script. -/
def luaNatText (n : ℕ) : String :=
  if double n < 10 ^ 14 then toString (double n) else scientific (double n)

/-- `tostring(n)`, and the text of a number that is concatenated to a string. -/
def luaToString (n : ℤ) : String :=
  if n < 0 then "-" ++ luaNatText n.natAbs else luaNatText n.natAbs

/-- What stands before and after the first occurrence of a character. -/
def splitOnce (c : Char) : List Char → Option (List Char × List Char)
  | [] => none
  | d :: l => if d = c then some ([], l) else (splitOnce c l).map fun p => (d :: p.1, p.2)

/-- A decimal numeral. -/
def natNumeral (l : List Char) : Option ℕ :=
  if l ≠ [] ∧ l.all Char.isDigit then some (Nat.ofDigitChars 10 l 0) else none

/-- A numeral, or a number in scientific notation with a whole value. -/
def luaNat (l : List Char) : Option ℕ :=
  match splitOnce 'e' l with
  | none => natNumeral l
  | some (mantissa, '+' :: exponent) => do
    let e ← natNumeral exponent
    match splitOnce '.' mantissa with
    | none => return (← natNumeral mantissa) * 10 ^ e
    | some (whole, fraction) => return (← natNumeral (whole ++ fraction)) * 10 ^ (e - fraction.length)
  | some _ => none

/-- A number behind an optional sign. -/
def signed (read : List Char → Option ℕ) : List Char → Option ℤ
  | '-' :: l => (read l).map fun n : ℕ => -(n : ℤ)
  | l => (read l).map fun n : ℕ => (n : ℤ)

/-- `tonumber(s)`, for the texts that `tostring` writes and those that have a bar, which are no
numbers. -/
def luaToNumber : List Char → Option ℤ := signed luaNat

/-- Python's `int(s)` of such a text, which accepts no scientific notation. -/
def pyInt (s : String) : Option ℤ := signed natNumeral s.toList

/-- What `parse_claim` reads from a claim key. No number in place of the expiry makes the comparison
that follows fail. -/
structure ParsedClaim where
  owner : String
  token : String
  expires : Option ℤ
deriving DecidableEq

/-- `parse_claim`: the three parts of a claim value, cut at its first two bars. -/
def parseClaim (v : String) : Option ParsedClaim := do
  let (owner, rest) ← splitOnce '|' v.toList
  let (token, expires) ← splitOnce '|' rest
  return ⟨String.ofList owner, String.ofList token, luaToNumber expires⟩

/-- `ARGV[3] .. '|' .. token .. '|' .. expires`: the value of a claim key. -/
def claimValue (ownerId : String) (token : ℕ) (expires : ℤ) : String :=
  ownerId ++ "|" ++ luaToString token ++ "|" ++ luaToString expires

/-- Small numbers are doubles. -/
theorem double_of_lt {n : ℕ} (h : n < 2 ^ 53) : double n = n := if_pos h

/-- A quotient is rounded down or up. -/
theorem div_le_divRound (n d : ℕ) : n / d ≤ divRound n d := by
  unfold divRound
  split <;> omega

/-- Rounding to a double keeps large numbers large. -/
theorem le_double {n : ℕ} (h : 2 ^ 53 ≤ n) : 2 ^ 53 ≤ double n := by
  have hn : n ≠ 0 := by omega
  have hlog : 53 ≤ n.log2 := (Nat.le_log2 hn).mpr h
  obtain ⟨k, hk⟩ : ∃ k, n.log2 = k + 53 := ⟨n.log2 - 53, by omega⟩
  have hpow : 2 ^ 52 ≤ n / 2 ^ (k + 1) := by
    rw [Nat.le_div_iff_mul_le (Nat.two_pow_pos _), ← pow_add]
    exact le_trans (le_of_eq (by rw [hk]; ring)) (Nat.log2_self_le hn)
  unfold double
  rw [if_neg (by omega), hk, show k + 53 - 52 = k + 1 by omega]
  calc 2 ^ 53 = 2 ^ 52 * 2 ^ 1 := by norm_num
    _ ≤ divRound n (2 ^ (k + 1)) * 2 ^ (k + 1) :=
        Nat.mul_le_mul (le_trans hpow (div_le_divRound _ _)) (Nat.pow_le_pow_right (by norm_num) (by omega))

/-- A number whose double is below `10^14` is that double. -/
theorem eq_double_of_lt {n : ℕ} (h : double n < 10 ^ 14) : double n = n := by
  by_cases hn : n < 2 ^ 53
  · exact double_of_lt hn
  · have := le_double (not_lt.mp hn)
    omega

/-- A number below `10^14` is written as its numeral. -/
theorem luaNatText_of_lt {n : ℕ} (h : n < 10 ^ 14) : luaNatText n = toString n := by
  rw [luaNatText, double_of_lt (by omega), if_pos h]

/-- Scientific notation has an exponent sign. -/
theorem exponent_mem_scientific (n : ℕ) : 'e' ∈ (scientific n).toList := by
  simp [scientific]

/-- A decimal numeral has digits only. -/
theorem isDigit_of_mem_toString {n : ℕ} {c : Char} (h : c ∈ (toString n).toList) :
    c.isDigit = true := by
  rw [Nat.toString_eq_ofList_toDigits, String.toList_ofList] at h
  exact Nat.isDigit_of_mem_toDigits (by decide) (by decide) h

/-- The text of a number that reads as a decimal numeral names that number. -/
theorem eq_of_luaNatText {n m : ℕ} (h : luaNatText n = toString m) : n = m := by
  unfold luaNatText at h
  split at h
  next hlt =>
    rw [eq_double_of_lt hlt] at h
    exact toString_nat_inj h
  next =>
    -- No decimal numeral contains the exponent sign.
    have he := exponent_mem_scientific (double n)
    rw [h] at he
    exact absurd (isDigit_of_mem_toString he) (by decide)

@[simp]
theorem luaToString_natCast (n : ℕ) : luaToString n = luaNatText n := by
  simp [luaToString]

/-- The revision compare of the scripts, `tostring(rt.revision) ~= ARGV[2]`, passes on equal
revisions only. -/
theorem eq_of_luaToString {n m : ℕ} (h : luaToString n = toString m) : n = m :=
  eq_of_luaNatText (by rwa [luaToString_natCast] at h)

/-- It passes on every revision below `10^14`. -/
theorem luaToString_of_lt {n : ℕ} (h : n < 10 ^ 14) : luaToString n = toString n := by
  rw [luaToString_natCast, luaNatText_of_lt h]

/-- A text is cut at the first occurrence of a character. -/
theorem splitOnce_append {c : Char} {l : List Char} (h : c ∉ l) (r : List Char) :
    splitOnce c (l ++ c :: r) = some (l, r) := by
  induction l with
  | nil => simp [splitOnce]
  | cons d l ih =>
    rw [List.mem_cons, not_or] at h
    simp [splitOnce, Ne.symm h.1, ih h.2]

/-- A text without the character is not cut. -/
theorem splitOnce_eq_none {c : Char} {l : List Char} (h : c ∉ l) : splitOnce c l = none := by
  induction l with
  | nil => rfl
  | cons d l ih =>
    rw [List.mem_cons, not_or] at h
    simp [splitOnce, Ne.symm h.1, ih h.2]

/-- A character that is no digit does not occur in a numeral. -/
theorem notMem_toString {c : Char} (h : c.isDigit = false) (n : ℕ) : c ∉ (toString n).toList :=
  fun hc => by simp [isDigit_of_mem_toString hc] at h

/-- A numeral is read back. -/
theorem natNumeral_toString (n : ℕ) : natNumeral (toString n).toList = some n := by
  have hne : (toString n).toList ≠ [] := by
    rw [Nat.toString_eq_ofList_toDigits, String.toList_ofList]
    exact Nat.toDigits_ne_nil
  have hd : (toString n).toList.all Char.isDigit = true :=
    List.all_eq_true.mpr fun c hc => isDigit_of_mem_toString hc
  rw [natNumeral, if_pos ⟨hne, hd⟩, Nat.toString_eq_ofList_toDigits, String.toList_ofList,
    Nat.ofDigitChars_ten_toDigits]

/-- A numeral has no exponent. -/
theorem luaNat_toString (n : ℕ) : luaNat (toString n).toList = some n := by
  rw [luaNat, splitOnce_eq_none (notMem_toString (by decide) n)]
  exact natNumeral_toString n

/-- The parts that a text is cut into. -/
theorem eq_of_splitOnce {c : Char} {l a b : List Char} (h : splitOnce c l = some (a, b)) :
    l = a ++ c :: b := by
  induction l generalizing a with
  | nil => contradiction
  | cons d l ih =>
    rw [splitOnce] at h
    split at h
    next hd =>
      obtain ⟨rfl, rfl⟩ := Prod.mk.inj (Option.some.inj h)
      rw [hd, List.nil_append]
    next =>
      obtain ⟨p, hp, heq⟩ := Option.map_eq_some_iff.mp h
      obtain ⟨rfl, rfl⟩ := Prod.mk.inj heq
      rw [ih hp, List.cons_append]

/-- A numeral has no bar. -/
theorem bar_notMem_of_natNumeral {l : List Char} {n : ℕ} (h : natNumeral l = some n) : '|' ∉ l := by
  intro hbar
  unfold natNumeral at h
  split at h
  next hdigits => exact absurd (List.all_eq_true.mp hdigits.2 _ hbar) (by decide)
  next => contradiction

/-- A text with a bar is no number. -/
theorem bar_notMem_of_luaNat {l : List Char} {n : ℕ} (h : luaNat l = some n) : '|' ∉ l := by
  unfold luaNat at h
  split at h
  next => exact bar_notMem_of_natNumeral h
  next mantissa exponent hl =>
    rw [eq_of_splitOnce hl]
    obtain ⟨e, he, h⟩ := Option.bind_eq_some_iff.mp h
    have hexponent := bar_notMem_of_natNumeral he
    -- The mantissa has the digits of one numeral and perhaps a point.
    have hmantissa : '|' ∉ mantissa := by
      split at h
      next =>
        obtain ⟨m, hm, -⟩ := Option.bind_eq_some_iff.mp h
        exact bar_notMem_of_natNumeral hm
      next whole fraction hsplit =>
        obtain ⟨m, hm, -⟩ := Option.bind_eq_some_iff.mp h
        have hdigits := bar_notMem_of_natNumeral hm
        rw [eq_of_splitOnce hsplit]
        simpa using hdigits
    simp [hmantissa, hexponent]
  next => contradiction

theorem bar_notMem_of_luaToNumber {l : List Char} {n : ℤ} (h : luaToNumber l = some n) : '|' ∉ l := by
  unfold luaToNumber signed at h
  split at h
  · obtain ⟨m, hm, -⟩ := Option.map_eq_some_iff.mp h
    have := bar_notMem_of_luaNat hm
    simpa using this
  · obtain ⟨m, hm, -⟩ := Option.map_eq_some_iff.mp h
    exact bar_notMem_of_luaNat hm

/-- What reads numerals back reads back what `tostring` wrote. -/
theorem signed_luaToString {read : List Char → Option ℕ} {n : ℤ} (h : n.natAbs < 10 ^ 14)
    (hread : read (toString n.natAbs).toList = some n.natAbs) :
    signed read (luaToString n).toList = some n := by
  unfold luaToString
  rw [luaNatText_of_lt h]
  split
  next hneg =>
    rw [String.toList_append]
    change (read (toString n.natAbs).toList).map (fun n : ℕ => -(n : ℤ)) = some n
    rw [hread, Option.map_some]
    congr 1
    omega
  next hpos =>
    have hsign : ∀ l, (toString n.natAbs).toList ≠ '-' :: l := by
      intro l hl
      have hm : '-' ∈ (toString n.natAbs).toList := hl ▸ List.mem_cons_self
      exact notMem_toString (by decide) _ hm
    have hunsigned : signed read (toString n.natAbs).toList =
        (read (toString n.natAbs).toList).map fun n : ℕ => (n : ℤ) := by
      unfold signed
      split
      next l hl => exact absurd hl (hsign l)
      next => rfl
    rw [hunsigned, hread, Option.map_some]
    congr 1
    omega

/-- `tonumber` reads back what `tostring` wrote. -/
theorem luaToNumber_luaToString {n : ℤ} (h : n.natAbs < 10 ^ 14) :
    luaToNumber (luaToString n).toList = some n :=
  signed_luaToString h (luaNat_toString _)

/-- `parse_claim` recovers the owner, the token and the expiry of a claim value. -/
theorem parseClaim_claimValue {ownerId : String} (ho : '|' ∉ ownerId.toList) {token : ℕ}
    (ht : token < 10 ^ 14) {expires : ℤ} (he : expires.natAbs < 10 ^ 14) :
    parseClaim (claimValue ownerId token expires) =
      some ⟨ownerId, toString token, some expires⟩ := by
  have hv : (claimValue ownerId token expires).toList =
      ownerId.toList ++ '|' :: ((toString token).toList ++ '|' :: (luaToString expires).toList) := by
    simp [claimValue, luaNatText_of_lt ht]
  have hd : '|' ∉ (toString token).toList := notMem_toString (by decide) token
  simp only [parseClaim, hv, splitOnce_append ho, splitOnce_append hd,
    luaToNumber_luaToString he, Option.bind_eq_bind, Option.bind_some, Option.pure_def,
    String.ofList_toList]

end Dibs
