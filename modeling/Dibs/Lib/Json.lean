import Mathlib.Data.List.Basic
import Mathlib.Data.Int.Notation
import Mathlib.Data.Nat.Notation

/-!
# JSON texts

JSON values with whole numbers, the compact text of a value, and a reader of such texts. A text has no
white space between its tokens; strings escape quotes, backslashes and control characters and leave
every other character alone. The reader takes every short escape and every `\u` escape that stands for
a character by itself, and refuses numbers with leading zeros.

`parse_text` is the round trip: what was written is read back as the value that was written. The reader
recurs on fuel, of which the length of the text is always enough.
-/

namespace Dibs

/-- A JSON value, its numbers whole and its members in order. -/
inductive Json
  | null
  | bool (b : Bool)
  | int (n : ℤ)
  | str (s : String)
  | arr (elements : List Json)
  | obj (members : List (String × Json))

namespace Json

/-! ## Strings -/

/-- The quotation mark. -/
def quote : Char := Char.ofNat 34

/-- The backslash. -/
def backslash : Char := Char.ofNat 92

/-- The escapes of two characters: what follows the backslash, and what it stands for. -/
def shortEscapes : List (Char × Char) :=
  [(quote, quote), (backslash, backslash), ('b', Char.ofNat 8), ('t', Char.ofNat 9),
    ('n', Char.ofNat 10), ('f', Char.ofNat 12), ('r', Char.ofNat 13)]

/-- A character inside a string. -/
def escape (c : Char) : List Char :=
  match shortEscapes.find? (·.2 = c) with
  | some (e, _) => [backslash, e]
  | none =>
    if c.toNat < 32 then
      [backslash, 'u', '0', '0', Nat.digitChar (c.toNat / 16), Nat.digitChar (c.toNat % 16)]
    else [c]

/-- The value of a hexadecimal digit. -/
def hexValue (c : Char) : Option ℕ :=
  (List.range 16).find? fun n => c = Nat.digitChar n ∨ c = (Nat.digitChar n).toUpper

/-- The character of a `\u` escape, when it stands for one by itself. -/
def hexChar (digits : List Char) : Option Char := do
  let values ← digits.mapM hexValue
  let n := values.foldl (fun n d => 16 * n + d) 0
  if n.isValidChar then some (Char.ofNat n) else none

/-- The character that an escape of two characters stands for. -/
def unescape (e : Char) : Option Char :=
  if e = '/' then some e else (shortEscapes.find? (·.1 = e)).map Prod.snd

/-- Put a character in front of a string that was read. -/
def push (c : Char) (rest : List Char × List Char) : List Char × List Char := (c :: rest.1, rest.2)

/-- The rest of a string up to its closing quotation mark, and what follows. -/
def readString : List Char → Option (List Char × List Char)
  | [] => none
  | c :: r =>
    if c = quote then some ([], r)
    else if c = backslash then
      match r with
      | [] => none
      | e :: r =>
        if e = 'u' then
          match r with
          | h₁ :: h₂ :: h₃ :: h₄ :: r =>
            (hexChar [h₁, h₂, h₃, h₄]).bind fun c => (readString r).map (push c)
          | _ => none
        else (unescape e).bind fun c => (readString r).map (push c)
    else if c.toNat < 32 then none
    else (readString r).map (push c)

theorem unescape_of_mem : ∀ p ∈ shortEscapes, p.1 ≠ 'u' ∧ unescape p.1 = some p.2 := by decide

theorem hexChar_control : ∀ n < 32,
    hexChar ['0', '0', Nat.digitChar (n / 16), Nat.digitChar (n % 16)] = some (Char.ofNat n) := by
  decide

/-- Reading undoes the escaping of one character. -/
theorem readString_escape (c : Char) (r : List Char) :
    readString (escape c ++ r) = (readString r).map (push c) := by
  unfold escape
  split
  next e c' hfind =>
    obtain rfl : c' = c := by simpa using List.find?_some hfind
    obtain ⟨hne, hback⟩ := unescape_of_mem _ (List.mem_of_find?_eq_some hfind)
    have hquote : backslash ≠ quote := by decide
    rw [List.cons_append, List.cons_append, List.nil_append, readString.eq_def]
    simp only [if_neg hquote, if_true, if_neg hne, hback, Option.bind_some]
  next hfind =>
    have hplain := List.find?_eq_none.mp hfind
    split
    next hcontrol =>
      have hquote : backslash ≠ quote := by decide
      rw [readString.eq_def]
      simp only [List.cons_append, List.nil_append, if_neg hquote, if_true, hexChar_control _ hcontrol,
        Char.ofNat_toNat, Option.bind_some]
    next hcontrol =>
      have hquote : c ≠ quote := by
        rintro rfl
        exact hplain (quote, quote) (by decide) (by simp)
      have hbackslash : c ≠ backslash := by
        rintro rfl
        exact hplain (backslash, backslash) (by decide) (by simp)
      rw [List.cons_append, List.nil_append, readString.eq_def]
      simp only [if_neg hquote, if_neg hbackslash, if_neg hcontrol]

/-- Reading undoes the escaping of a string. -/
theorem readString_flatMap (s r : List Char) :
    readString (s.flatMap escape ++ quote :: r) = some (s, r) := by
  induction s with
  | nil =>
    rw [List.flatMap_nil, List.nil_append, readString.eq_def]
    simp only [if_true]
  | cons c s ih =>
    rw [List.flatMap_cons, List.append_assoc, readString_escape, ih]
    rfl

/-! ## Numbers -/

/-- The digits of a number. -/
def printInt : ℤ → List Char
  | .ofNat n => Nat.toDigits 10 n
  | .negSucc n => '-' :: Nat.toDigits 10 (n + 1)

/-- The digits at the front, when they are the ones that a number is written with. -/
def readNat (cs : List Char) : Option (ℕ × List Char) :=
  let digits := cs.takeWhile Char.isDigit
  let n := Nat.ofDigitChars 10 digits 0
  if Nat.toDigits 10 n = digits then some (n, cs.dropWhile Char.isDigit) else none

/-- A number with its sign. -/
def readInt : List Char → Option (ℤ × List Char)
  | [] => none
  | c :: r =>
    if c = '-' then (readNat r).bind fun p => if p.1 = 0 then none else some (-(p.1 : ℤ), p.2)
    else (readNat (c :: r)).map fun p => ((p.1 : ℤ), p.2)

/-- What follows a number does not prolong it. -/
def Ends (r : List Char) : Prop := ∀ c ∈ r.head?, c.isDigit = false

theorem readNat_toDigits (n : ℕ) {r : List Char} (h : Ends r) :
    readNat (Nat.toDigits 10 n ++ r) = some (n, r) := by
  have hdigits : ∀ c ∈ Nat.toDigits 10 n, c.isDigit = true := fun c hc =>
    Nat.isDigit_of_mem_toDigits (by decide) (by decide) hc
  have htake : r.takeWhile Char.isDigit = [] := by
    cases r with
    | nil => rfl
    | cons c r => exact List.takeWhile_cons_of_neg (by simp [h c rfl])
  have hdrop : r.dropWhile Char.isDigit = r := by
    cases r with
    | nil => rfl
    | cons c r => exact List.dropWhile_cons_of_neg (by simp [h c rfl])
  unfold readNat
  rw [List.takeWhile_append_of_pos hdigits, List.dropWhile_append_of_pos hdigits, htake, hdrop,
    List.append_nil]
  simp only [Nat.ofDigitChars_ten_toDigits, if_true]

theorem readInt_printInt (n : ℤ) {r : List Char} (h : Ends r) :
    readInt (printInt n ++ r) = some (n, r) := by
  cases n with
  | ofNat n =>
    have hread := readNat_toDigits n h
    simp only [printInt]
    cases hdigits : Nat.toDigits 10 n with
    | nil => exact absurd hdigits Nat.toDigits_ne_nil
    | cons c ds =>
      have hc : c.isDigit = true :=
        Nat.isDigit_of_mem_toDigits (by decide) (by decide) (hdigits ▸ List.mem_cons_self)
      have hsign : c ≠ '-' := by
        rintro rfl
        exact absurd hc (by decide)
      rw [hdigits] at hread
      rw [List.cons_append] at hread ⊢
      rw [readInt, if_neg hsign, hread]
      rfl
  | negSucc n =>
    simp only [printInt, List.cons_append, readInt, if_true, readNat_toDigits (n + 1) h,
      Option.bind_some]
    rfl

/-! ## Values -/

mutual

/-- The text of a value. -/
def print : Json → List Char
  | .null => ['n', 'u', 'l', 'l']
  | .bool true => ['t', 'r', 'u', 'e']
  | .bool false => ['f', 'a', 'l', 's', 'e']
  | .int n => printInt n
  | .str s => quote :: (s.toList.flatMap escape ++ [quote])
  | .arr [] => ['[', ']']
  | .arr (x :: xs) => '[' :: (print x ++ printElements xs)
  | .obj [] => ['{', '}']
  | .obj (m :: ms) => '{' :: (printMember m ++ printMembers ms)

/-- The text of the further elements of an array. -/
def printElements : List Json → List Char
  | [] => [']']
  | x :: xs => ',' :: (print x ++ printElements xs)

/-- The text of a member. -/
def printMember : String × Json → List Char
  | (k, v) => quote :: (k.toList.flatMap escape ++ quote :: ':' :: print v)

/-- The text of the further members of an object. -/
def printMembers : List (String × Json) → List Char
  | [] => ['}']
  | m :: ms => ',' :: (printMember m ++ printMembers ms)

end

/-- A literal at the front. -/
def readLiteral (cs : List Char) : Option (Json × List Char) :=
  if cs.take 4 = ['n', 'u', 'l', 'l'] then some (.null, cs.drop 4)
  else if cs.take 4 = ['t', 'r', 'u', 'e'] then some (.bool true, cs.drop 4)
  else if cs.take 5 = ['f', 'a', 'l', 's', 'e'] then some (.bool false, cs.drop 5)
  else none

mutual

/-- A value at the front of a text, and what follows. -/
def read : ℕ → List Char → Option (Json × List Char)
  | 0, _ | _, [] => none
  | n + 1, c :: r =>
    if c = '-' ∨ c.isDigit then (readInt (c :: r)).map fun p => (.int p.1, p.2)
    else if c = quote then (readString r).map fun p => (.str (String.ofList p.1), p.2)
    else if c = '[' then
      if r.head? = some ']' then some (.arr [], r.tail)
      else do
        let (x, r) ← read n r
        let (xs, r) ← readElements n r
        return (.arr (x :: xs), r)
    else if c = '{' then
      if r.head? = some '}' then some (.obj [], r.tail)
      else do
        let (m, r) ← readMember n r
        let (ms, r) ← readMembers n r
        return (.obj (m :: ms), r)
    else readLiteral (c :: r)

/-- The further elements of an array. -/
def readElements : ℕ → List Char → Option (List Json × List Char)
  | 0, _ | _, [] => none
  | n + 1, c :: r =>
    if c = ']' then some ([], r)
    else if c = ',' then do
      let (x, r) ← read n r
      let (xs, r) ← readElements n r
      return (x :: xs, r)
    else none

/-- A member. -/
def readMember : ℕ → List Char → Option ((String × Json) × List Char)
  | 0, _ | _, [] => none
  | n + 1, c :: r =>
    if c = quote then do
      let (k, r) ← readString r
      if r.head? = some ':' then do
        let (v, r) ← read n r.tail
        return ((String.ofList k, v), r)
      else none
    else none

/-- The further members of an object. -/
def readMembers : ℕ → List Char → Option (List (String × Json) × List Char)
  | 0, _ | _, [] => none
  | n + 1, c :: r =>
    if c = '}' then some ([], r)
    else if c = ',' then do
      let (m, r) ← readMember n r
      let (ms, r) ← readMembers n r
      return (m :: ms, r)
    else none

end

/-- The text of a value. -/
def text (j : Json) : String := String.ofList j.print

/-- The value of a text. -/
def parse (s : String) : Option Json :=
  match read (s.toList.length + 1) s.toList with
  | some (j, []) => some j
  | _ => none

/-! ## The round trip -/

theorem Ends.of_cons {c : Char} {r : List Char} (h : c.isDigit = false) : Ends (c :: r) := by
  intro c' hc'
  obtain rfl := Option.some.inj hc'
  exact h

/-- Nothing that follows a value inside an array or an object is a digit. -/
theorem ends_printElements (xs : List Json) (r : List Char) : Ends (printElements xs ++ r) := by
  cases xs <;> exact .of_cons (by decide)

theorem ends_printMembers (ms : List (String × Json)) (r : List Char) : Ends (printMembers ms ++ r) := by
  cases ms <;> exact .of_cons (by decide)

/-- The first character of a number is a sign or a digit. -/
theorem printInt_cons (n : ℤ) : ∃ c r, printInt n = c :: r ∧ (c = '-' ∨ c.isDigit = true) := by
  cases n with
  | ofNat n =>
    cases hdigits : Nat.toDigits 10 n with
    | nil => exact absurd hdigits Nat.toDigits_ne_nil
    | cons c r =>
      exact ⟨c, r, hdigits,
        .inr (Nat.isDigit_of_mem_toDigits (by decide) (by decide) (hdigits ▸ List.mem_cons_self))⟩
  | negSucc n => exact ⟨'-', _, rfl, .inl rfl⟩

/-- No value begins with a closing bracket. -/
theorem head?_print (j : Json) (r : List Char) : (print j ++ r).head? ≠ some ']' := by
  cases j with
  | null => simp [print]
  | bool b => cases b <;> simp [print]
  | str s => simp [print, quote]
  | arr xs => cases xs <;> simp [print]
  | obj ms => cases ms <;> simp [print]
  | int n =>
    obtain ⟨c, r', hn, hc⟩ := printInt_cons n
    simp only [print, hn, List.cons_append, List.head?_cons, ne_eq, Option.some.injEq]
    rintro rfl
    exact absurd hc (by decide)

/-- A text is not empty. -/
theorem print_pos (j : Json) : 0 < (print j).length := by
  cases j with
  | bool b => cases b <;> simp [print]
  | arr xs => cases xs <;> simp [print]
  | obj ms => cases ms <;> simp [print]
  | int n =>
    obtain ⟨c, r, hn, -⟩ := printInt_cons n
    simp [print, hn]
  | null | str => simp [print]

/-- No member begins with a closing brace. -/
theorem head?_printMember (m : String × Json) (r : List Char) :
    (printMember m ++ r).head? ≠ some '}' := by
  obtain ⟨k, v⟩ := m
  simp [printMember, quote]

mutual

/-- Reading a value undoes printing it, when the fuel is not less than the length of its text. -/
theorem read_print : ∀ (j : Json) (n : ℕ) (r : List Char), (print j).length ≤ n → Ends r →
    read n (print j ++ r) = some (j, r)
  | .null, n + 1, r, _, _ => by simp [print, read, quote, readLiteral]
  | .bool true, n + 1, r, _, _ => by simp [print, read, quote, readLiteral]
  | .bool false, n + 1, r, _, _ => by simp [print, read, quote, readLiteral]
  | .int i, n + 1, r, _, hr => by
    obtain ⟨c, r', hi, hc⟩ := printInt_cons i
    have hread := readInt_printInt i hr
    rw [hi, List.cons_append] at hread
    rw [print, hi, List.cons_append, read, if_pos hc, hread]
    rfl
  | .str s, n + 1, r, _, _ => by
    rw [print, List.cons_append, List.append_assoc, read, if_neg (by decide), if_pos rfl,
      List.cons_append, List.nil_append, readString_flatMap, Option.map_some, String.ofList_toList]
  | .arr [], n + 1, r, _, _ => by simp [print, read, quote]
  | .arr (x :: xs), n + 1, r, h, _ => by
    simp only [print, List.length_cons, List.length_append] at h
    have hx := read_print x n (printElements xs ++ r) (by omega) (ends_printElements xs r)
    have hxs := readElements_printElements xs n r (by omega)
    rw [print, List.cons_append, List.append_assoc, read, if_neg (by decide), if_neg (by decide),
      if_pos rfl, if_neg (head?_print x _), hx]
    simp only [Option.bind_eq_bind, Option.bind_some, hxs]
    rfl
  | .obj [], n + 1, r, _, _ => by simp [print, read, quote]
  | .obj (m :: ms), n + 1, r, h, _ => by
    simp only [print, List.length_cons, List.length_append] at h
    have hm := readMember_printMember m n (printMembers ms ++ r) (by omega) (ends_printMembers ms r)
    have hms := readMembers_printMembers ms n r (by omega)
    rw [print, List.cons_append, List.append_assoc, read, if_neg (by decide), if_neg (by decide),
      if_neg (by decide), if_pos rfl, if_neg (head?_printMember m _), hm]
    simp only [Option.bind_eq_bind, Option.bind_some, hms]
    rfl
  | j, 0, r, h, _ => by
    have hpos := print_pos j
    omega

theorem readElements_printElements : ∀ (xs : List Json) (n : ℕ) (r : List Char),
    (printElements xs).length ≤ n → readElements n (printElements xs ++ r) = some (xs, r)
  | [], n + 1, r, _ => by simp [printElements, readElements]
  | x :: xs, n + 1, r, h => by
    simp only [printElements, List.length_cons, List.length_append] at h
    have hx := read_print x n (printElements xs ++ r) (by omega) (ends_printElements xs r)
    have hxs := readElements_printElements xs n r (by omega)
    simp [printElements, readElements, hx, hxs]
  | xs, 0, r, h => by
    cases xs <;> simp [printElements] at h

theorem readMember_printMember : ∀ (m : String × Json) (n : ℕ) (r : List Char),
    (printMember m).length ≤ n → Ends r → readMember n (printMember m ++ r) = some (m, r)
  | (k, v), n + 1, r, h, hr => by
    simp only [printMember, List.length_cons, List.length_append] at h
    have hv := read_print v n r (by omega) hr
    simp [printMember, readMember, readString_flatMap, hv]
  | (k, v), 0, r, h, _ => by simp [printMember] at h

theorem readMembers_printMembers : ∀ (ms : List (String × Json)) (n : ℕ) (r : List Char),
    (printMembers ms).length ≤ n → readMembers n (printMembers ms ++ r) = some (ms, r)
  | [], n + 1, r, _ => by simp [printMembers, readMembers]
  | m :: ms, n + 1, r, h => by
    simp only [printMembers, List.length_cons, List.length_append] at h
    have hm := readMember_printMember m n (printMembers ms ++ r) (by omega) (ends_printMembers ms r)
    have hms := readMembers_printMembers ms n r (by omega)
    simp [printMembers, readMembers, hm, hms]
  | ms, 0, r, h => by
    cases ms <;> simp [printMembers] at h

end

/-- What was written is read back. -/
theorem parse_text (j : Json) : parse j.text = some j := by
  have hread := read_print j (j.print.length + 1) [] (Nat.le_succ _) (by simp [Ends])
  rw [List.append_nil] at hread
  rw [parse, text, String.toList_ofList, hread]

/-! ## Typed values -/

variable {α : Type}

/-- A natural number. -/
def asNat : Json → Option ℕ
  | .int (.ofNat n) => some n
  | _ => none

/-- A boolean. -/
def asBool : Json → Option Bool
  | .bool b => some b
  | _ => none

/-- A string. -/
def asString : Json → Option String
  | .str s => some s
  | _ => none

/-- An array, element by element. -/
def array (element : Json → Option α) : Json → Option (List α)
  | .arr elements => elements.mapM element
  | _ => none

/-- A value or `null`. -/
def nullable (value : Json → Option α) : Json → Option (Option α)
  | .null => some none
  | j => (value j).map some

/-- What is written for a value that may be missing. -/
def orNull (write : α → Json) : Option α → Json
  | none => .null
  | some x => write x

/-- The members of an object that has only members with the given names. -/
def members (names : List String) : Json → Option (List (String × Json))
  | .obj ms => if ∀ m ∈ ms, m.1 ∈ names then some ms else none
  | _ => none

/-- A member that has to be there. -/
def required (ms : List (String × Json)) (name : String) (value : Json → Option α) : Option α :=
  (ms.lookup name).bind value

/-- A member with a default. -/
def defaulting (ms : List (String × Json)) (name : String) (default : α) (value : Json → Option α) :
    Option α :=
  match ms.lookup name with
  | none => some default
  | some j => value j

/-- An object with these members only. -/
theorem members_obj {names : List String} {ms : List (String × Json)}
    (h : (ms.map Prod.fst).all (names.contains ·) = true) : (obj ms).members names = some ms := by
  rw [members, if_pos]
  simpa using h

theorem required_cons_self (name : String) (j : Json) (ms : List (String × Json))
    (value : Json → Option α) : required ((name, j) :: ms) name value = value j := by
  simp [required]

theorem required_cons_ne {name name' : String} (h : name' ≠ name) (j : Json) (ms : List (String × Json))
    (value : Json → Option α) : required ((name, j) :: ms) name' value = required ms name' value := by
  have hne : (name' == name) = false := by simpa using h
  simp [required, List.lookup_cons, hne]

theorem defaulting_cons_self (name : String) (j : Json) (ms : List (String × Json)) (default : α)
    (value : Json → Option α) : defaulting ((name, j) :: ms) name default value = value j := by
  simp [defaulting]

theorem defaulting_cons_ne {name name' : String} (h : name' ≠ name) (j : Json)
    (ms : List (String × Json)) (default : α) (value : Json → Option α) :
    defaulting ((name, j) :: ms) name' default value = defaulting ms name' default value := by
  have hne : (name' == name) = false := by simpa using h
  simp [defaulting, List.lookup_cons, hne]

/-- Reading undoes writing where a value may be missing, when nothing else is written as `null`. -/
theorem nullable_orNull {write : α → Json} {value : Json → Option α} {x : Option α}
    (hback : ∀ y ∈ x, value (write y) = some y) (hnull : ∀ y, write y ≠ .null) :
    nullable value (orNull write x) = some x := by
  cases x with
  | none => rfl
  | some y =>
    have hy := hback y rfl
    simp only [orNull]
    cases hw : write y with
    | null => exact absurd hw (hnull y)
    | _ =>
      rw [hw] at hy
      simp only [nullable, hy, Option.map_some]

/-- Reading undoes writing in arrays. -/
theorem array_map {write : α → Json} {element : Json → Option α} {l : List α}
    (hback : ∀ x ∈ l, element (write x) = some x) : array element (.arr (l.map write)) = some l := by
  simp only [array]
  induction l with
  | nil => rfl
  | cons x l ih =>
    obtain ⟨hx, hl⟩ := List.forall_mem_cons.mp hback
    simp [List.mapM_cons, hx, ih hl]

end Json

end Dibs
