import Dibs.Lib.Json
import Mathlib.Data.List.Nodup
import Mathlib.Data.String.Basic

/-!
# JSON texts in ASCII

The compact text of a value with every character outside printable ASCII escaped, by one `\u` escape or by the two
of a surrogate pair. A text determines its value (`dumps_inj`): every part of it can be told from what follows it.
Sorting the members of an object loses nothing either, between objects that list their keys in one order
(`sortKeys_obj_inj`).
-/

namespace Dibs

namespace Json

/-! ## Characters -/

/-- The four hexadecimal digits of a number below `2^16`. -/
def hex4 (n : ℕ) : List Char :=
  [Nat.digitChar (n / 4096), Nat.digitChar (n / 256 % 16), Nat.digitChar (n / 16 % 16), Nat.digitChar (n % 16)]

/-- A character inside a string of ASCII. -/
def asciiEscape (c : Char) : List Char :=
  match shortEscapes.find? (·.2 = c) with
  | some (e, _) => [backslash, e]
  | none =>
    if 32 ≤ c.toNat ∧ c.toNat < 127 then [c]
    else if c.toNat < 0x10000 then backslash :: 'u' :: hex4 c.toNat
    else
      backslash :: 'u' :: (hex4 (0xd800 + (c.toNat - 0x10000) / 0x400) ++
        backslash :: 'u' :: hex4 (0xdc00 + (c.toNat - 0x10000) % 0x400))

/-- The number of four hexadecimal digits at the front, and what follows. -/
def readHex4 : List Char → Option (ℕ × List Char)
  | a :: b :: c :: d :: r => do
    let a ← hexValue a
    let b ← hexValue b
    let c ← hexValue c
    let d ← hexValue d
    return (a * 4096 + b * 256 + c * 16 + d, r)
  | _ => none

/-- The character at the front of the inside of a string, and what follows. -/
def readAscii : List Char → Option (Char × List Char)
  | [] => none
  | c :: r =>
    if c ≠ backslash then some (c, r)
    else
      match r with
      | [] => none
      | e :: r =>
        if e ≠ 'u' then (unescape e).map fun c => (c, r)
        else do
          let (n, r) ← readHex4 r
          if 0xd800 ≤ n ∧ n < 0xdc00 then
            let (low, r) ← readHex4 (r.drop 2)
            return (Char.ofNat (0x10000 + (n - 0xd800) * 0x400 + (low - 0xdc00)), r)
          else return (Char.ofNat n, r)

theorem hexValue_digitChar : ∀ d < 16, hexValue (Nat.digitChar d) = some d := by decide

theorem readHex4_hex4 {n : ℕ} (h : n < 65536) (r : List Char) : readHex4 (hex4 n ++ r) = some (n, r) := by
  unfold hex4 readHex4
  simp only [List.cons_append, List.nil_append, hexValue_digitChar _ (show n / 4096 < 16 by omega),
    hexValue_digitChar _ (show n / 256 % 16 < 16 by omega), hexValue_digitChar _ (show n / 16 % 16 < 16 by omega),
    hexValue_digitChar _ (show n % 16 < 16 by omega), Option.bind_eq_bind, Option.bind_some, Option.pure_def]
  congr 2
  omega

/-- Reading undoes the escaping of one character. -/
theorem readAscii_asciiEscape (c : Char) (r : List Char) : readAscii (asciiEscape c ++ r) = some (c, r) := by
  unfold asciiEscape
  split
  next e c' hfind =>
    obtain rfl : c' = c := by simpa using List.find?_some hfind
    obtain ⟨hne, hback⟩ := unescape_of_mem _ (List.mem_of_find?_eq_some hfind)
    simp only [List.cons_append, List.nil_append, readAscii, ne_eq, not_true_eq_false, if_false, hne,
      not_false_eq_true, if_true, hback, Option.map_some]
  next hfind =>
    have hbackslash : c ≠ backslash := by
      rintro rfl
      exact List.find?_eq_none.mp hfind (backslash, backslash) (by decide) (by simp)
    have hvalid : c.toNat < 0xd800 ∨ 0xdfff < c.toNat ∧ c.toNat < 0x110000 := by
      have hchar := c.valid
      unfold UInt32.isValidChar Nat.isValidChar at hchar
      exact hchar
    split_ifs with hplain hbmp
    · simp only [List.cons_append, List.nil_append, readAscii, ne_eq, hbackslash, not_false_eq_true, if_true]
    · have hsingle : ¬ (0xd800 ≤ c.toNat ∧ c.toNat < 0xdc00) := by omega
      simp only [List.cons_append, readAscii, ne_eq, not_true_eq_false, if_false, readHex4_hex4 hbmp r,
        Option.bind_eq_bind, Option.bind_some, if_neg hsingle, Char.ofNat_toNat, Option.pure_def]
    · obtain ⟨high, hhigh⟩ : ∃ high, 0xd800 + (c.toNat - 0x10000) / 0x400 = high := ⟨_, rfl⟩
      obtain ⟨low, hlow⟩ : ∃ low, 0xdc00 + (c.toNat - 0x10000) % 0x400 = low := ⟨_, rfl⟩
      have hpair : 0xd800 ≤ high ∧ high < 0xdc00 := by omega
      have hback : 0x10000 + (high - 0xd800) * 0x400 + (low - 0xdc00) = c.toNat := by omega
      rw [hhigh, hlow]
      simp only [List.cons_append, List.append_assoc, readAscii, ne_eq, not_true_eq_false, if_false,
        readHex4_hex4 (show high < 65536 by omega), Option.bind_eq_bind, Option.bind_some, if_pos hpair,
        List.drop_succ_cons, List.drop_zero, readHex4_hex4 (show low < 65536 by omega), hback, Char.ofNat_toNat,
        Option.pure_def]

/-- What an escape begins with is no quotation mark. -/
theorem asciiEscape_cons (c : Char) : ∃ d r, asciiEscape c = d :: r ∧ d ≠ quote := by
  have hquote : backslash ≠ quote := by decide
  unfold asciiEscape
  split
  next e c' hfind => exact ⟨_, _, rfl, hquote⟩
  next hfind =>
    split_ifs
    · refine ⟨c, [], rfl, ?_⟩
      rintro rfl
      exact List.find?_eq_none.mp hfind (quote, quote) (by decide) (by simp)
    · exact ⟨_, _, rfl, hquote⟩
    · exact ⟨_, _, rfl, hquote⟩

/-- The inside of a string can be told from what follows its quotation mark. -/
theorem flatMap_asciiEscape_inj {s s' r r' : List Char}
    (h : s.flatMap asciiEscape ++ quote :: r = s'.flatMap asciiEscape ++ quote :: r') : s = s' ∧ r = r' := by
  induction s generalizing s' with
  | nil =>
    cases s' with
    | nil => exact ⟨rfl, (List.cons.inj h).2⟩
    | cons c s' =>
      obtain ⟨d, l, hd, hne⟩ := asciiEscape_cons c
      rw [List.flatMap_cons, hd] at h
      exact absurd (List.cons.inj h).1.symm hne
  | cons c s ih =>
    cases s' with
    | nil =>
      obtain ⟨d, l, hd, hne⟩ := asciiEscape_cons c
      rw [List.flatMap_cons, hd] at h
      exact absurd (List.cons.inj h).1 hne
    | cons c' s' =>
      rw [List.flatMap_cons, List.flatMap_cons, List.append_assoc, List.append_assoc] at h
      have hread := readAscii_asciiEscape c (s.flatMap asciiEscape ++ quote :: r)
      rw [h, readAscii_asciiEscape] at hread
      obtain ⟨rfl, hrest⟩ := Prod.mk.inj (Option.some.inj hread)
      obtain ⟨rfl, rfl⟩ := ih hrest.symm
      exact ⟨rfl, rfl⟩

/-! ## Values -/

mutual

/-- The text of a value in ASCII. -/
def ascii : Json → List Char
  | .null => ['n', 'u', 'l', 'l']
  | .bool true => ['t', 'r', 'u', 'e']
  | .bool false => ['f', 'a', 'l', 's', 'e']
  | .int n => printInt n
  | .str s => quote :: (s.toList.flatMap asciiEscape ++ [quote])
  | .arr [] => ['[', ']']
  | .arr (x :: xs) => '[' :: (ascii x ++ asciiElements xs)
  | .obj [] => ['{', '}']
  | .obj (m :: ms) => '{' :: (asciiMember m ++ asciiMembers ms)

/-- The text of the further elements of an array. -/
def asciiElements : List Json → List Char
  | [] => [']']
  | x :: xs => ',' :: (ascii x ++ asciiElements xs)

/-- The text of a member. -/
def asciiMember : String × Json → List Char
  | (k, v) => quote :: (k.toList.flatMap asciiEscape ++ quote :: ':' :: ascii v)

/-- The text of the further members of an object. -/
def asciiMembers : List (String × Json) → List Char
  | [] => ['}']
  | m :: ms => ',' :: (asciiMember m ++ asciiMembers ms)

end

/-- Two values of one kind. -/
inductive Alike : Json → Json → Prop
  | null : Alike .null .null
  | bool (b : Bool) : Alike (.bool b) (.bool b)
  | int (m n : ℤ) : Alike (.int m) (.int n)
  | str (s t : String) : Alike (.str s) (.str t)
  | arr (xs ys : List Json) : Alike (.arr xs) (.arr ys)
  | obj (ms ns : List (String × Json)) : Alike (.obj ms) (.obj ns)

/-- The first character of the text of a value that is no number. -/
def lead : Json → Option Char
  | .null => some 'n'
  | .bool true => some 't'
  | .bool false => some 'f'
  | .int _ => none
  | .str _ => some quote
  | .arr _ => some '['
  | .obj _ => some '{'

/-- A text begins with the first character of its kind, and a number with a sign or a digit. -/
theorem ascii_cons (j : Json) : ∃ c r, ascii j = c :: r ∧
    (lead j = some c ∨ lead j = none ∧ (c = '-' ∨ c.isDigit = true)) := by
  cases j with
  | null => exact ⟨_, _, rfl, .inl rfl⟩
  | bool b => cases b <;> exact ⟨_, _, rfl, .inl rfl⟩
  | int n =>
    obtain ⟨c, r, hn, hc⟩ := printInt_cons n
    exact ⟨c, r, hn, .inr ⟨rfl, hc⟩⟩
  | str s => exact ⟨_, _, rfl, .inl rfl⟩
  | arr xs => cases xs <;> exact ⟨_, _, rfl, .inl rfl⟩
  | obj ms => cases ms <;> exact ⟨_, _, rfl, .inl rfl⟩

/-- The first character of a value is neither that of a number nor a closing bracket. -/
theorem lead_spec {j : Json} {c : Char} (h : lead j = some c) : c ≠ '-' ∧ c.isDigit = false ∧ c ≠ ']' := by
  unfold lead at h
  split at h
  all_goals first | contradiction | (obtain rfl := Option.some.inj h; exact ⟨by decide, by decide, by decide⟩)

/-- A value without a first character of its own is a number. -/
theorem int_of_lead {j : Json} (h : lead j = none) : ∃ n, j = .int n := by
  cases j with
  | int n => exact ⟨n, rfl⟩
  | bool b => cases b <;> contradiction
  | null | str | arr | obj => contradiction

theorem alike_of_lead {j j' : Json} {c : Char} (h : lead j = some c) (h' : lead j' = some c) : Alike j j' := by
  have heq := h.trans h'.symm
  cases j with
  | null =>
    cases j' with
    | null => exact .null
    | bool b => cases b <;> exact absurd heq (by decide)
    | int | str | arr | obj => exact absurd heq (by simp [lead, quote])
  | bool b =>
    cases j' with
    | bool b' => cases b <;> cases b' <;> first | exact .bool _ | exact absurd heq (by decide)
    | null | int | str | arr | obj => cases b <;> exact absurd heq (by simp [lead, quote])
  | int n => contradiction
  | str s =>
    cases j' with
    | str t => exact .str s t
    | bool b => cases b <;> exact absurd heq (by simp [lead, quote])
    | null | int | arr | obj => exact absurd heq (by simp [lead, quote])
  | arr xs =>
    cases j' with
    | arr ys => exact .arr xs ys
    | bool b => cases b <;> exact absurd heq (by simp [lead])
    | null | int | str | obj => exact absurd heq (by simp [lead, quote])
  | obj ms =>
    cases j' with
    | obj ns => exact .obj ms ns
    | bool b => cases b <;> exact absurd heq (by simp [lead])
    | null | int | str | arr => exact absurd heq (by simp [lead, quote])

/-- Values whose texts begin alike are of one kind. -/
theorem alike_of_append {j j' : Json} {r r' : List Char} (h : ascii j ++ r = ascii j' ++ r') : Alike j j' := by
  obtain ⟨c, l, hc, hlead⟩ := ascii_cons j
  obtain ⟨c', l', hc', hlead'⟩ := ascii_cons j'
  rw [hc, hc'] at h
  obtain rfl : c = c' := (List.cons.inj h).1
  rcases hlead with hlead | ⟨hlead, hdigit⟩
  · rcases hlead' with hlead' | ⟨-, hdigit'⟩
    · exact alike_of_lead hlead hlead'
    · obtain ⟨hsign, hplain, -⟩ := lead_spec hlead
      rcases hdigit' with rfl | hdigit'
      · contradiction
      · rw [hplain] at hdigit'
        contradiction
  · rcases hlead' with hlead' | ⟨hlead', -⟩
    · obtain ⟨hsign, hplain, -⟩ := lead_spec hlead'
      rcases hdigit with rfl | hdigit
      · contradiction
      · rw [hplain] at hdigit
        contradiction
    · obtain ⟨m, rfl⟩ := int_of_lead hlead
      obtain ⟨n, rfl⟩ := int_of_lead hlead'
      exact .int m n

/-- No value begins with a closing bracket. -/
theorem ascii_ne_close (j : Json) {r r' : List Char} (h : ascii j ++ r = ']' :: r') : False := by
  obtain ⟨c, l, hc, hlead⟩ := ascii_cons j
  rw [hc] at h
  obtain rfl : c = ']' := (List.cons.inj h).1
  rcases hlead with hlead | ⟨-, hdigit⟩
  · exact (lead_spec hlead).2.2 rfl
  · exact absurd hdigit (by decide)

/-- No member begins with a closing brace. -/
theorem asciiMember_ne_close (m : String × Json) {r r' : List Char} (h : asciiMember m ++ r = '}' :: r') : False := by
  obtain ⟨k, v⟩ := m
  have hquote : quote ≠ '}' := by decide
  unfold asciiMember at h
  exact hquote (List.cons.inj h).1

/-- Nothing that follows a value inside an array or an object is a digit. -/
theorem ends_asciiElements (xs : List Json) (r : List Char) : Ends (asciiElements xs ++ r) := by
  cases xs <;> exact .of_cons (by decide)

theorem ends_asciiMembers (ms : List (String × Json)) (r : List Char) : Ends (asciiMembers ms ++ r) := by
  cases ms <;> exact .of_cons (by decide)

mutual

/-- A value can be told from what follows its text. -/
theorem ascii_append_inj : ∀ (j j' : Json) (r r' : List Char), Ends r → Ends r' →
    ascii j ++ r = ascii j' ++ r' → j = j' ∧ r = r'
  | .null, j', r, r', _, _, h => by
    cases alike_of_append h
    exact ⟨rfl, List.append_cancel_left h⟩
  | .bool b, j', r, r', _, _, h => by
    cases alike_of_append h
    exact ⟨rfl, List.append_cancel_left h⟩
  | .int m, j', r, r', hr, hr', h => by
    cases alike_of_append h with
    | int _ n =>
      have hread := readInt_printInt m hr
      rw [show printInt m ++ r = printInt n ++ r' by simpa only [ascii] using h, readInt_printInt n hr'] at hread
      obtain ⟨rfl, rfl⟩ := Prod.mk.inj (Option.some.inj hread)
      exact ⟨rfl, rfl⟩
  | .str s, j', r, r', _, _, h => by
    cases alike_of_append h with
    | str _ t =>
      simp only [ascii, List.cons_append, List.append_assoc, List.nil_append] at h
      obtain ⟨hs, hr⟩ := flatMap_asciiEscape_inj (List.cons.inj h).2
      exact ⟨by rw [String.toList_inj.mp hs], hr⟩
  | .arr [], j', r, r', _, _, h => by
    cases alike_of_append h with
    | arr _ ys =>
      cases ys with
      | nil =>
        simp only [ascii, List.cons_append, List.nil_append] at h
        exact ⟨rfl, (List.cons.inj (List.cons.inj h).2).2⟩
      | cons y ys =>
        simp only [ascii, List.cons_append, List.nil_append, List.append_assoc] at h
        exact (ascii_ne_close y (List.cons.inj h).2.symm).elim
  | .arr (x :: xs), j', r, r', _, _, h => by
    cases alike_of_append h with
    | arr _ ys =>
      cases ys with
      | nil =>
        simp only [ascii, List.cons_append, List.nil_append, List.append_assoc] at h
        exact (ascii_ne_close x (List.cons.inj h).2).elim
      | cons y ys =>
        simp only [ascii, List.cons_append, List.append_assoc] at h
        obtain ⟨rfl, hrest⟩ := ascii_append_inj x y _ _ (ends_asciiElements xs r) (ends_asciiElements ys r')
          (List.cons.inj h).2
        obtain ⟨rfl, rfl⟩ := asciiElements_append_inj xs ys r r' hrest
        exact ⟨rfl, rfl⟩
  | .obj [], j', r, r', _, _, h => by
    cases alike_of_append h with
    | obj _ ns =>
      cases ns with
      | nil =>
        simp only [ascii, List.cons_append, List.nil_append] at h
        exact ⟨rfl, (List.cons.inj (List.cons.inj h).2).2⟩
      | cons n ns =>
        simp only [ascii, List.cons_append, List.nil_append, List.append_assoc] at h
        exact (asciiMember_ne_close n (List.cons.inj h).2.symm).elim
  | .obj (m :: ms), j', r, r', _, _, h => by
    cases alike_of_append h with
    | obj _ ns =>
      cases ns with
      | nil =>
        simp only [ascii, List.cons_append, List.nil_append, List.append_assoc] at h
        exact (asciiMember_ne_close m (List.cons.inj h).2).elim
      | cons n ns =>
        simp only [ascii, List.cons_append, List.append_assoc] at h
        obtain ⟨rfl, hrest⟩ := asciiMember_append_inj m n _ _ (ends_asciiMembers ms r) (ends_asciiMembers ns r')
          (List.cons.inj h).2
        obtain ⟨rfl, rfl⟩ := asciiMembers_append_inj ms ns r r' hrest
        exact ⟨rfl, rfl⟩

theorem asciiElements_append_inj : ∀ (xs ys : List Json) (r r' : List Char),
    asciiElements xs ++ r = asciiElements ys ++ r' → xs = ys ∧ r = r'
  | [], [], r, r', h => ⟨rfl, (List.cons.inj h).2⟩
  | [], y :: ys, r, r', h => by simp [asciiElements] at h
  | x :: xs, [], r, r', h => by simp [asciiElements] at h
  | x :: xs, y :: ys, r, r', h => by
    simp only [asciiElements, List.cons_append, List.append_assoc] at h
    obtain ⟨rfl, hrest⟩ := ascii_append_inj x y _ _ (ends_asciiElements xs r) (ends_asciiElements ys r')
      (List.cons.inj h).2
    obtain ⟨rfl, rfl⟩ := asciiElements_append_inj xs ys r r' hrest
    exact ⟨rfl, rfl⟩

theorem asciiMember_append_inj : ∀ (m n : String × Json) (r r' : List Char), Ends r → Ends r' →
    asciiMember m ++ r = asciiMember n ++ r' → m = n ∧ r = r'
  | (k, v), (k', v'), r, r', hr, hr', h => by
    simp only [asciiMember, List.cons_append, List.append_assoc] at h
    obtain ⟨hk, hrest⟩ := flatMap_asciiEscape_inj (List.cons.inj h).2
    obtain ⟨rfl, rfl⟩ := ascii_append_inj v v' r r' hr hr' (List.cons.inj hrest).2
    exact ⟨by rw [String.toList_inj.mp hk], rfl⟩

theorem asciiMembers_append_inj : ∀ (ms ns : List (String × Json)) (r r' : List Char),
    asciiMembers ms ++ r = asciiMembers ns ++ r' → ms = ns ∧ r = r'
  | [], [], r, r', h => ⟨rfl, (List.cons.inj h).2⟩
  | [], n :: ns, r, r', h => by simp [asciiMembers] at h
  | m :: ms, [], r, r', h => by simp [asciiMembers] at h
  | m :: ms, n :: ns, r, r', h => by
    simp only [asciiMembers, List.cons_append, List.append_assoc] at h
    obtain ⟨rfl, hrest⟩ := asciiMember_append_inj m n _ _ (ends_asciiMembers ms r) (ends_asciiMembers ns r')
      (List.cons.inj h).2
    obtain ⟨rfl, rfl⟩ := asciiMembers_append_inj ms ns r r' hrest
    exact ⟨rfl, rfl⟩

end

/-! ## Sorting -/

mutual

/-- A value with the members of every object in the order of their keys, `sort_keys=True`. -/
def sortKeys : Json → Json
  | .arr xs => .arr (sortElements xs)
  | .obj ms => .obj ((sortMembers ms).mergeSort fun m n => decide (m.1 ≤ n.1))
  | .null => .null
  | .bool b => .bool b
  | .int n => .int n
  | .str s => .str s

/-- The elements of an array, each sorted inside. -/
def sortElements : List Json → List Json
  | [] => []
  | x :: xs => sortKeys x :: sortElements xs

/-- The members of an object, each sorted inside. -/
def sortMembers : List (String × Json) → List (String × Json)
  | [] => []
  | (k, v) :: ms => (k, sortKeys v) :: sortMembers ms

end

theorem keys_sortMembers (ms : List (String × Json)) : (sortMembers ms).map Prod.fst = ms.map Prod.fst := by
  induction ms with
  | nil => rfl
  | cons m ms ih => simp only [sortMembers, List.map_cons, ih]

/-- Two lists of one content that list different keys in one order are equal. -/
theorem eq_of_perm_of_keys {α : Type} {l l' : List (String × α)} (hkeys : l.map Prod.fst = l'.map Prod.fst)
    (hnodup : (l.map Prod.fst).Nodup) (hperm : l.Perm l') : l = l' := by
  induction l generalizing l' with
  | nil => exact hperm.nil_eq
  | cons a l ih =>
    cases l' with
    | nil => exact absurd hperm.symm.nil_eq (by simp)
    | cons b l' =>
      have htails := (List.cons.inj hkeys).2
      obtain ⟨hfresh, hnodup⟩ := List.nodup_cons.mp hnodup
      -- The first entry has its counterpart in first place, where alone its key stands.
      have hab : a = b := by
        refine (List.mem_cons.mp (hperm.mem_iff.mp List.mem_cons_self)).resolve_right fun ha => hfresh ?_
        rw [htails]
        exact List.mem_map_of_mem ha
      subst hab
      rw [ih htails hnodup ((List.perm_cons a).mp hperm)]

/-- Sorting tells apart objects that list the same different keys. -/
theorem sortKeys_obj_inj {ms ns : List (String × Json)} (hkeys : ms.map Prod.fst = ns.map Prod.fst)
    (hnodup : (ms.map Prod.fst).Nodup) (h : sortKeys (.obj ms) = sortKeys (.obj ns)) :
    sortMembers ms = sortMembers ns := by
  simp only [sortKeys, obj.injEq] at h
  refine eq_of_perm_of_keys ?_ ?_ ?_
  · rw [keys_sortMembers, keys_sortMembers, hkeys]
  · rw [keys_sortMembers]
    exact hnodup
  · have hsorted := List.mergeSort_perm (sortMembers ms) fun m n => decide (m.1 ≤ n.1)
    rw [h] at hsorted
    exact hsorted.symm.trans (List.mergeSort_perm _ _)

/-- What may be missing is told apart where its values are, and where none is `null`. -/
theorem sortKeys_orNull_inj {α : Type} {write : α → Json}
    (hwrite : ∀ x y, sortKeys (write x) = sortKeys (write y) → x = y)
    (hnull : ∀ x, sortKeys (write x) ≠ .null) {x y : Option α}
    (h : sortKeys (orNull write x) = sortKeys (orNull write y)) : x = y := by
  cases x with
  | none =>
    cases y with
    | none => rfl
    | some y => exact absurd h.symm (hnull y)
  | some x =>
    cases y with
    | none => exact absurd h (hnull x)
    | some y => rw [hwrite x y h]

theorem sortElements_strs (l : List String) : sortElements (l.map .str) = l.map .str := by
  induction l with
  | nil => rfl
  | cons s l ih => simp only [List.map_cons, sortElements, sortKeys, ih]

/-- `json.dumps` with `separators=(",", ":")`: the text of a value in ASCII. -/
def dumps (j : Json) : String := String.ofList j.ascii

/-- A text determines its value. -/
theorem dumps_inj {j j' : Json} (h : j.dumps = j'.dumps) : j = j' := by
  have htexts : j.ascii ++ [] = j'.ascii ++ [] := by
    rw [List.append_nil, List.append_nil]
    exact String.ofList_injective h
  exact (ascii_append_inj j j' [] [] (by simp [Ends]) (by simp [Ends]) htexts).1

end Json

end Dibs
