import Mathlib.Data.List.DropRight
import Dibs.Models.Watch

/-!
# Connection URLs without their credentials

`redact_dsn` of `backend/config.py`, over `urlparse` on texts of the form `scheme://rest`. A password is not quoted
in a connection URL, so its own delimiters can end the netloc before the password does. `Server.exposed` says what
then stands in the place of the host, the port and the database, and `redaction_hides_iff` that two passwords show
no difference exactly when these are the same.
-/

namespace Dibs

/-- A character that ends the netloc. -/
def endsNetloc (c : Char) : Bool := c = '/' || c = '?' || c = '#'

/-- What `urlparse` finds in a URL. -/
structure ParsedUrl where
  scheme : List Char
  netloc : List Char
  path : List Char

/-- `urlparse` of `scheme://rest`. The netloc ends at the first `/`, `?` or `#`, and the path at the first `?` or
`#`. -/
def urlparse (url : List Char) : ParsedUrl :=
  let rest := (url.dropWhile (· ≠ ':')).drop 3
  { scheme := url.takeWhile (· ≠ ':')
    netloc := rest.takeWhile (!endsNetloc ·)
    path := (rest.dropWhile (!endsNetloc ·)).takeWhile fun c => c ≠ '?' && c ≠ '#' }

/-- What follows the userinfo, which ends at the last `@`. -/
def hostinfo (netloc : List Char) : List Char := netloc.rtakeWhile (· ≠ '@')

/-- The host of a hostinfo as it is written. -/
def hostText (hostinfo : List Char) : List Char := hostinfo.takeWhile (· ≠ ':')

/-- The port of a hostinfo as it is written. -/
def portText (hostinfo : List Char) : List Char := (hostinfo.dropWhile (· ≠ ':')).drop 1

/-- The `ValueError` of `.port`. -/
inductive PortError
  | valueError
deriving DecidableEq

/-- `.port`. -/
def portOf (text : List Char) : Except PortError (Option ℕ) :=
  if text = [] then .ok none
  else if text.all Char.isDigit && decide (Nat.ofDigitChars 10 text 0 ≤ 65535) then
    .ok (some (Nat.ofDigitChars 10 text 0))
  else .error .valueError

/-- The port of a redacted URL. A port of zero is as good as none. -/
def shownPort : Option ℕ → List Char
  | none | some 0 => []
  | some (n + 1) => ':' :: Nat.toDigits 10 (n + 1)

section Redaction

-- `str.lower`.
variable (lower : List Char → List Char)

/-- `parsed.scheme or "unknown-scheme"`. -/
def shownScheme (scheme : List Char) : List Char :=
  if scheme = [] then "unknown-scheme".toList else lower scheme

/-- `parsed.hostname or "unknown-host"`. What follows a `%` keeps its case. -/
def shownHost (host : List Char) : List Char :=
  if host = [] then "unknown-host".toList
  else lower (host.takeWhile (· ≠ '%')) ++ host.dropWhile (· ≠ '%')

/-- The placeholder for what cannot be parsed. -/
def unparseable : String := "<unparseable connection URL>"

/-- `redact_dsn`. -/
def redactDsn (dsn : String) : String :=
  let parsed := urlparse dsn.toList
  let host := hostinfo parsed.netloc
  match portOf (portText host) with
  | .error _ => unparseable
  | .ok port =>
    String.ofList (shownScheme lower parsed.scheme ++ ':' :: '/' :: '/' :: (shownHost lower (hostText host) ++
      (shownPort port ++ parsed.path)))

end Redaction

/-! ## The URLs of a server -/

/-- A text without the characters that delimit the parts of a URL. -/
def Undelimited (s : String) : Prop := ∀ c ∈ s.toList, c ≠ '/' ∧ c ≠ '?' ∧ c ≠ '#' ∧ c ≠ '@' ∧ c ≠ ':'

instance (s : String) : Decidable (Undelimited s) :=
  List.decidableBAll (fun c => c ≠ '/' ∧ c ≠ '?' ∧ c ≠ '#' ∧ c ≠ '@' ∧ c ≠ ':') s.toList

/-- The parts of a connection URL but for the password. -/
structure Server where
  scheme : String
  user : String
  host : String
  port : String
  db : String
  undelimited : ∀ s ∈ [scheme, user, host, port, db], Undelimited s

namespace Server

variable (s : Server)

/-- What follows the password in the URL. -/
def target : List Char := s.host.toList ++ ':' :: (s.port.toList ++ '/' :: s.db.toList)

/-- The URL with a password. -/
def dsn (password : String) : String :=
  s.scheme ++ "://" ++ s.user ++ ":" ++ password ++ "@" ++ s.host ++ ":" ++ s.port ++ "/" ++ s.db

/-- What stands in the place of the host, the port and the path. -/
structure Exposed where
  host : List Char
  port : List Char
  path : List Char

/-- What a password exposes. Without a `/`, `?` or `#` it exposes the server. Otherwise the netloc ends there: what
follows the last `@` before it is taken for the host and port, or without one the user for the host and the
beginning of the password for the port, and what follows a `/` for the path. -/
def exposed (password : List Char) : Exposed :=
  let before := password.takeWhile (!endsNetloc ·)
  match password.dropWhile (!endsNetloc ·) with
  | [] => ⟨s.host.toList, s.port.toList, '/' :: s.db.toList⟩
  | delimiter :: after =>
    let path := if delimiter = '/' then '/' :: (after ++ '@' :: s.target).takeWhile fun c => c ≠ '?' && c ≠ '#' else []
    if '@' ∈ before then ⟨hostText (hostinfo before), portText (hostinfo before), path⟩
    else ⟨s.user.toList, before, path⟩

/-- What two passwords expose does not differ, or the port of one cannot be parsed. -/
def Hidden (lower : List Char → List Char) (p q : List Char) : Prop :=
  portOf (s.exposed p).port = .error .valueError ∨ portOf (s.exposed q).port = .error .valueError ∨
    shownHost lower (s.exposed p).host = shownHost lower (s.exposed q).host ∧
      (portOf (s.exposed p).port).map shownPort = (portOf (s.exposed q).port).map shownPort ∧
      (s.exposed p).path = (s.exposed q).path

/-! ### What is parsed -/

/-- The part after the last `@` does not depend on what is before a part that has one. -/
theorem hostinfo_append {l r : List Char} (h : '@' ∈ r) : hostinfo (l ++ r) = hostinfo r := by
  unfold hostinfo List.rtakeWhile
  rw [List.reverse_append, List.takeWhile_append, if_neg]
  intro hall
  have hself := List.Sublist.eq_of_length (List.takeWhile_sublist _) hall
  have hkept := List.takeWhile_eq_self_iff.mp hself '@' (List.mem_reverse.mpr h)
  simp at hkept

/-- Without an `@` it is the whole. -/
theorem hostinfo_eq_self {l : List Char} (h : '@' ∉ l) : hostinfo l = l := by
  unfold hostinfo
  refine List.rtakeWhile_eq_self_iff.mpr fun c hc => ?_
  have hne : c ≠ '@' := fun heq => h (heq ▸ hc)
  simpa using hne

theorem hostinfo_append_cons {l r : List Char} (h : '@' ∉ r) : hostinfo (l ++ '@' :: r) = r := by
  have hall : ∀ c ∈ r.reverse, decide (c ≠ '@') = true := fun c hc => by
    have hne : c ≠ '@' := fun heq => h (heq ▸ List.mem_reverse.mp hc)
    simpa using hne
  unfold hostinfo List.rtakeWhile
  rw [List.reverse_append, List.reverse_cons, List.append_assoc, List.takeWhile_append_of_pos hall,
    List.singleton_append, List.takeWhile_cons_of_neg (by simp), List.append_nil, List.reverse_reverse]

/-- A text is cut at the first character with a property. -/
theorem cut_append {p : Char → Bool} {l r : List Char} {d : Char} (hl : ∀ c ∈ l, p c = true) (hd : p d = false) :
    (l ++ d :: r).takeWhile p = l ∧ (l ++ d :: r).dropWhile p = d :: r := by
  have hstop : ¬ p d = true := by simp [hd]
  constructor
  · rw [List.takeWhile_append_of_pos hl, List.takeWhile_cons_of_neg hstop, List.append_nil]
  · rw [List.dropWhile_append_of_pos hl, List.dropWhile_cons_of_neg hstop]

theorem forall_ne {c : Char} {l : List Char} (h : c ∉ l) : ∀ x ∈ l, decide (x ≠ c) = true := by
  intro x hx
  have hne : x ≠ c := fun heq => h (heq ▸ hx)
  simpa using hne

/-- A host before a colon, and the port after it. -/
theorem hostText_append {l r : List Char} (h : ':' ∉ l) : hostText (l ++ ':' :: r) = l :=
  (cut_append (forall_ne h) (by simp)).1

theorem portText_append {l r : List Char} (h : ':' ∉ l) : portText (l ++ ':' :: r) = r := by
  unfold portText
  rw [(cut_append (forall_ne h) (by simp)).2]
  rfl

/-- The URL as characters. -/
theorem dsn_toList (password : String) : (s.dsn password).toList =
    s.scheme.toList ++ ':' :: '/' :: '/' :: (s.user.toList ++ ':' :: (password.toList ++ '@' :: s.target)) := by
  have hsep : "://".toList = [':', '/', '/'] := by decide
  have hcolon : ":".toList = [':'] := by decide
  have hat : "@".toList = ['@'] := by decide
  have hslash : "/".toList = ['/'] := by decide
  unfold dsn target
  simp only [String.toList_append, hsep, hcolon, hat, hslash, List.append_assoc, List.cons_append, List.nil_append]

variable {s}

theorem undelimited_of_mem {part : String} (hmem : part ∈ [s.scheme, s.user, s.host, s.port, s.db]) {c : Char}
    (hc : c ∈ ['/', '?', '#', '@', ':']) : c ∉ part.toList := by
  intro hin
  obtain ⟨hslash, hquery, hfragment, hat, hcolon⟩ := s.undelimited part hmem c hin
  simp only [List.mem_cons, List.not_mem_nil, or_false] at hc
  rcases hc with rfl | rfl | rfl | rfl | rfl
  · exact hslash rfl
  · exact hquery rfl
  · exact hfragment rfl
  · exact hat rfl
  · exact hcolon rfl

/-- Its parts do not end a netloc. -/
theorem endsNetloc_of_mem {part : String} (hmem : part ∈ [s.scheme, s.user, s.host, s.port, s.db]) :
    ∀ c ∈ part.toList, (!endsNetloc c) = true := by
  intro c hc
  obtain ⟨hslash, hquery, hfragment, -⟩ := s.undelimited part hmem c hc
  simp [endsNetloc, hslash, hquery, hfragment]

/-- What follows the scheme of the URL. -/
def rest (s : Server) (password : List Char) : List Char := s.user.toList ++ ':' :: (password ++ '@' :: s.target)

/-- The scheme is read back, and the rest is what follows it. -/
theorem urlparse_dsn (password : String) :
    urlparse (s.dsn password).toList =
      { scheme := s.scheme.toList
        netloc := (s.rest password.toList).takeWhile (!endsNetloc ·)
        path := ((s.rest password.toList).dropWhile (!endsNetloc ·)).takeWhile fun c => c ≠ '?' && c ≠ '#' } := by
  have hscheme : ':' ∉ s.scheme.toList := undelimited_of_mem List.mem_cons_self (by decide)
  obtain ⟨htake, hdrop⟩ := cut_append (r := '/' :: '/' :: s.rest password.toList) (forall_ne hscheme)
    (show decide (':' ≠ ':') = false by decide)
  have hurl : (s.dsn password).toList = s.scheme.toList ++ ':' :: '/' :: '/' :: s.rest password.toList :=
    dsn_toList s password
  have hread : (s.dsn password).toList.takeWhile (· ≠ ':') = s.scheme.toList := by rw [hurl, htake]
  have hrest : ((s.dsn password).toList.dropWhile (· ≠ ':')).drop 3 = s.rest password.toList := by
    rw [hurl, hdrop]
    rfl
  unfold urlparse
  rw [hread, hrest]

/-- A password without delimiters of the netloc exposes the server. -/
theorem cut_plain {password : List Char} (h : password.dropWhile (!endsNetloc ·) = []) :
    (s.rest password).takeWhile (!endsNetloc ·) =
        s.user.toList ++ ':' :: (password ++ '@' :: (s.host.toList ++ ':' :: s.port.toList)) ∧
      (s.rest password).dropWhile (!endsNetloc ·) = '/' :: s.db.toList := by
  have hpassword : ∀ c ∈ password, (!endsNetloc c) = true := List.dropWhile_eq_nil_iff.mp h
  have hsplit : s.rest password =
      (s.user.toList ++ ':' :: (password ++ '@' :: (s.host.toList ++ ':' :: s.port.toList))) ++
        '/' :: s.db.toList := by
    unfold rest target
    simp only [List.append_assoc, List.cons_append]
  rw [hsplit]
  refine cut_append (fun c hc => ?_) (by decide)
  simp only [List.mem_append, List.mem_cons] at hc
  rcases hc with hc | rfl | hc | rfl | hc | rfl | hc
  · exact endsNetloc_of_mem (s := s) (by simp) c hc
  · decide
  · exact hpassword c hc
  · decide
  · exact endsNetloc_of_mem (s := s) (by simp) c hc
  · decide
  · exact endsNetloc_of_mem (s := s) (by simp) c hc

/-- A cut is made at a delimiter. -/
theorem endsNetloc_of_cut {password after : List Char} {delimiter : Char}
    (h : password.dropWhile (!endsNetloc ·) = delimiter :: after) : endsNetloc delimiter = true := by
  have hhead := List.head?_dropWhile_not (!endsNetloc ·) password
  rw [h] at hhead
  simpa using hhead

/-- Otherwise the netloc ends in the password. -/
theorem cut_delimited {password after : List Char} {delimiter : Char}
    (h : password.dropWhile (!endsNetloc ·) = delimiter :: after) :
    (s.rest password).takeWhile (!endsNetloc ·) =
        s.user.toList ++ ':' :: password.takeWhile (!endsNetloc ·) ∧
      (s.rest password).dropWhile (!endsNetloc ·) = delimiter :: (after ++ '@' :: s.target) := by
  have hdelimiter : (!endsNetloc delimiter) = false := by simp [endsNetloc_of_cut h]
  have hpassword : password = password.takeWhile (!endsNetloc ·) ++ delimiter :: after := by
    rw [← h, List.takeWhile_append_dropWhile]
  have hsplit : s.rest password = (s.user.toList ++ ':' :: password.takeWhile (!endsNetloc ·)) ++
      delimiter :: (after ++ '@' :: s.target) := by
    unfold rest
    nth_rewrite 1 [hpassword]
    simp only [List.append_assoc, List.cons_append]
  rw [hsplit]
  refine cut_append (fun c hc => ?_) hdelimiter
  simp only [List.mem_append, List.mem_cons] at hc
  rcases hc with hc | rfl | hc
  · exact endsNetloc_of_mem (s := s) (by simp) c hc
  · decide
  · exact @List.mem_takeWhile_imp _ (!endsNetloc ·) _ _ hc

/-- The path that a delimiter in the password begins. -/
def pathFrom (s : Server) (delimiter : Char) (after : List Char) : List Char :=
  if delimiter = '/' then '/' :: (after ++ '@' :: s.target).takeWhile fun c => c ≠ '?' && c ≠ '#' else []

theorem takeWhile_pathFrom {delimiter : Char} (h : endsNetloc delimiter = true) (after : List Char) :
    (delimiter :: (after ++ '@' :: s.target)).takeWhile (fun c => c ≠ '?' && c ≠ '#') =
      s.pathFrom delimiter after := by
  unfold endsNetloc at h
  simp only [Bool.or_eq_true, decide_eq_true_eq] at h
  unfold pathFrom
  rcases h with (rfl | rfl) | rfl
  · rw [if_pos rfl]
    exact List.takeWhile_cons_of_pos (by decide)
  · rw [if_neg (by decide)]
    exact List.takeWhile_cons_of_neg (by decide)
  · rw [if_neg (by decide)]
    exact List.takeWhile_cons_of_neg (by decide)

/-- The three cases of what a password exposes. -/
theorem exposed_plain {password : List Char} (h : password.dropWhile (!endsNetloc ·) = []) :
    s.exposed password = ⟨s.host.toList, s.port.toList, '/' :: s.db.toList⟩ := by
  unfold exposed
  rw [h]

theorem exposed_at {password after : List Char} {delimiter : Char}
    (h : password.dropWhile (!endsNetloc ·) = delimiter :: after)
    (hat : '@' ∈ password.takeWhile (!endsNetloc ·)) :
    s.exposed password = ⟨hostText (hostinfo (password.takeWhile (!endsNetloc ·))),
      portText (hostinfo (password.takeWhile (!endsNetloc ·))), s.pathFrom delimiter after⟩ := by
  unfold exposed
  rw [h]
  exact if_pos hat

theorem exposed_user {password after : List Char} {delimiter : Char}
    (h : password.dropWhile (!endsNetloc ·) = delimiter :: after)
    (hat : '@' ∉ password.takeWhile (!endsNetloc ·)) :
    s.exposed password =
      ⟨s.user.toList, password.takeWhile (!endsNetloc ·), s.pathFrom delimiter after⟩ := by
  unfold exposed
  rw [h]
  exact if_neg hat

/-- What `redact_dsn` finds is what the password exposes. -/
theorem parsed_exposed (password : String) :
    hostText (hostinfo (urlparse (s.dsn password).toList).netloc) = (s.exposed password.toList).host ∧
      portText (hostinfo (urlparse (s.dsn password).toList).netloc) = (s.exposed password.toList).port ∧
      (urlparse (s.dsn password).toList).path = (s.exposed password.toList).path := by
  have huser : ':' ∉ s.user.toList := undelimited_of_mem (s := s) (by simp) (by decide)
  have hhost : ':' ∉ s.host.toList := undelimited_of_mem (s := s) (by simp) (by decide)
  rw [urlparse_dsn]
  dsimp only
  cases hcut : password.toList.dropWhile (!endsNetloc ·) with
  | nil =>
    obtain ⟨hnetloc, hpath⟩ := cut_plain hcut
    have hat : '@' ∉ s.host.toList ++ ':' :: s.port.toList := by
      have hhost' : '@' ∉ s.host.toList := undelimited_of_mem (s := s) (by simp) (by decide)
      have hport : '@' ∉ s.port.toList := undelimited_of_mem (s := s) (by simp) (by decide)
      simp [hhost', hport]
    have hinfo : hostinfo ((s.rest password.toList).takeWhile (!endsNetloc ·)) =
        s.host.toList ++ ':' :: s.port.toList := by
      rw [hnetloc, ← List.cons_append, ← List.append_assoc]
      exact hostinfo_append_cons hat
    have hdb : ∀ c ∈ '/' :: s.db.toList, (c ≠ '?' && c ≠ '#') = true := by
      intro c hc
      rcases List.mem_cons.mp hc with rfl | hc
      · decide
      · obtain ⟨-, hquery, hfragment, -⟩ := s.undelimited s.db (by simp) c hc
        simp [hquery, hfragment]
    rw [hinfo, hpath, exposed_plain hcut, hostText_append hhost, portText_append hhost]
    exact ⟨rfl, rfl, List.takeWhile_eq_self_iff.mpr hdb⟩
  | cons delimiter after =>
    obtain ⟨hnetloc, hpath⟩ := cut_delimited (s := s) hcut
    rw [hnetloc, hpath, takeWhile_pathFrom (endsNetloc_of_cut hcut)]
    by_cases hat : '@' ∈ password.toList.takeWhile (!endsNetloc ·)
    · rw [exposed_at hcut hat, ← List.singleton_append, ← List.append_assoc, hostinfo_append hat]
      exact ⟨rfl, rfl, rfl⟩
    · have huser' : '@' ∉ s.user.toList := undelimited_of_mem (s := s) (by simp) (by decide)
      have hnone : '@' ∉ s.user.toList ++ ':' :: password.toList.takeWhile (!endsNetloc ·) := by
        simp only [List.mem_append, List.mem_cons, not_or]
        exact ⟨huser', by decide, hat⟩
      rw [exposed_user hcut hat, hostinfo_eq_self hnone, hostText_append huser, portText_append huser]
      exact ⟨rfl, rfl, rfl⟩

/-! ### What is shown -/

/-- A text is cut in one way between its characters with a property and the first one without it. -/
theorem cut_unique {p : Char → Bool} {l l' r r' : List Char} (hl : ∀ c ∈ l, p c = true)
    (hl' : ∀ c ∈ l', p c = true) (hr : ∀ c ∈ r.head?, p c = false) (hr' : ∀ c ∈ r'.head?, p c = false)
    (h : l ++ r = l' ++ r') : l = l' ∧ r = r' := by
  have htake : ∀ {l r : List Char}, (∀ c ∈ l, p c = true) → (∀ c ∈ r.head?, p c = false) →
      (l ++ r).takeWhile p = l := by
    intro l r hl hr
    cases r with
    | nil =>
      rw [List.append_nil]
      exact List.takeWhile_eq_self_iff.mpr hl
    | cons d r => exact (cut_append hl (hr d rfl)).1
  have heq : l = l' := by rw [← htake hl hr, h, htake hl' hr']
  subst heq
  exact ⟨rfl, List.append_cancel_left h⟩

/-- A shown port is empty or begins with a colon, and has no slash. -/
theorem shownPort_spec (port : Option ℕ) :
    (∀ c ∈ (shownPort port).head?, c = ':') ∧ ∀ c ∈ shownPort port, c ≠ '/' := by
  match port with
  | none | some 0 => exact ⟨by simp [shownPort], by simp [shownPort]⟩
  | some (n + 1) =>
    refine ⟨by simp [shownPort], fun c hc => ?_⟩
    unfold shownPort at hc
    rcases List.mem_cons.mp hc with rfl | hc
    · decide
    · have hdigit := Nat.isDigit_of_mem_toDigits (by decide) (by decide) hc
      rintro rfl
      exact absurd hdigit (by decide)

/-- The host that a password exposes has neither a colon nor a slash. -/
theorem exposed_host (password : List Char) : ∀ c ∈ (s.exposed password).host, c ≠ ':' ∧ c ≠ '/' := by
  intro c hc
  cases hcut : password.dropWhile (!endsNetloc ·) with
  | nil =>
    rw [exposed_plain hcut] at hc
    obtain ⟨hslash, -, -, -, hcolon⟩ := s.undelimited s.host (by simp) c hc
    exact ⟨hcolon, hslash⟩
  | cons delimiter after =>
    by_cases hat : '@' ∈ password.takeWhile (!endsNetloc ·)
    · rw [exposed_at hcut hat] at hc
      have hcolon := @List.mem_takeWhile_imp _ (· ≠ ':') _ _ hc
      have hinfo : c ∈ hostinfo (password.takeWhile (!endsNetloc ·)) := (List.takeWhile_sublist _).mem hc
      have hbefore := @List.mem_takeWhile_imp _ (!endsNetloc ·) _ _ ((List.rtakeWhile_suffix _ _).subset hinfo)
      refine ⟨by simpa using hcolon, ?_⟩
      rintro rfl
      exact absurd hbefore (by decide)
    · rw [exposed_user hcut hat] at hc
      obtain ⟨hslash, -, -, -, hcolon⟩ := s.undelimited s.user (by simp) c hc
      exact ⟨hcolon, hslash⟩

/-- The path that a password exposes is empty or begins with a slash. -/
theorem exposed_path (password : List Char) : ∀ c ∈ (s.exposed password).path.head?, c = '/' := by
  have hfrom : ∀ delimiter after, ∀ c ∈ (s.pathFrom delimiter after).head?, c = '/' := by
    intro delimiter after c hc
    unfold pathFrom at hc
    split_ifs at hc
    · simpa using hc.symm
    · simp at hc
  cases hcut : password.dropWhile (!endsNetloc ·) with
  | nil =>
    rw [exposed_plain hcut]
    simp
  | cons delimiter after =>
    by_cases hat : '@' ∈ password.takeWhile (!endsNetloc ·)
    · rw [exposed_at hcut hat]
      exact hfrom delimiter after
    · rw [exposed_user hcut hat]
      exact hfrom delimiter after

variable {lower : List Char → List Char}

/-- So has the host that is shown. -/
theorem shownHost_spec (hlower : ∀ l, ∀ c ∈ lower l, c = ':' ∨ c = '/' → c ∈ l) (password : List Char) :
    ∀ c ∈ shownHost lower (s.exposed password).host, (c ≠ ':' && c ≠ '/') = true := by
  intro c hc
  have hexposed := exposed_host (s := s) password
  suffices hneither : c ≠ ':' ∧ c ≠ '/' by simpa using hneither
  unfold shownHost at hc
  split_ifs at hc
  · have hplain : ∀ c ∈ "unknown-host".toList, c ≠ ':' ∧ c ≠ '/' :=
      @of_decide_eq_true _ (List.decidableBAll _ _) rfl
    exact hplain c hc
  · rcases List.mem_append.mp hc with hc | hc
    · by_contra hneither
      have hdelimits : c = ':' ∨ c = '/' := by tauto
      have hmem := (List.takeWhile_sublist _).mem (hlower _ c hc hdelimits)
      exact hneither (hexposed c hmem)
    · exact hexposed c ((List.dropWhile_sublist _).mem hc)

/-- The redacted URL, from what the password exposes. -/
theorem redactDsn_dsn (lower : List Char → List Char) (s : Server) (password : String) :
    redactDsn lower (s.dsn password) =
      match portOf (s.exposed password.toList).port with
      | .error _ => unparseable
      | .ok port => String.ofList (shownScheme lower s.scheme.toList ++ ':' :: '/' :: '/' ::
          (shownHost lower (s.exposed password.toList).host ++
            (shownPort port ++ (s.exposed password.toList).path))) := by
  obtain ⟨hhost, hport, hpath⟩ := s.parsed_exposed password
  have hscheme : (urlparse (s.dsn password).toList).scheme = s.scheme.toList := by rw [urlparse_dsn]
  unfold redactDsn
  dsimp only
  rw [hhost, hport, hpath, hscheme]

/-- A shown URL is not the placeholder. -/
theorem shown_ne_unparseable (scheme rest : List Char) :
    String.ofList (scheme ++ ':' :: rest) ≠ unparseable := by
  intro heq
  have hcolon : ':' ∈ unparseable.toList := by
    rw [← heq, String.toList_ofList]
    simp
  exact absurd hcolon (by decide)

/-- What is shown after the scheme is the same just when its parts are. -/
theorem shown_inj (hlower : ∀ l, ∀ c ∈ lower l, c = ':' ∨ c = '/' → c ∈ l) (p q : List Char)
    (port port' : Option ℕ) :
    shownHost lower (s.exposed p).host ++ (shownPort port ++ (s.exposed p).path) =
        shownHost lower (s.exposed q).host ++ (shownPort port' ++ (s.exposed q).path) ↔
      shownHost lower (s.exposed p).host = shownHost lower (s.exposed q).host ∧
        shownPort port = shownPort port' ∧ (s.exposed p).path = (s.exposed q).path := by
  have hrest : ∀ (port : Option ℕ) (password : List Char),
      ∀ c ∈ (shownPort port ++ (s.exposed password).path).head?, (c ≠ ':' && c ≠ '/') = false := by
    intro port password c hc
    cases hport : shownPort port with
    | nil =>
      rw [hport, List.nil_append] at hc
      simp [exposed_path password c hc]
    | cons d l =>
      rw [hport, List.cons_append] at hc
      have hd := (shownPort_spec port).1 d (by rw [hport]; rfl)
      obtain rfl : d = c := Option.some.inj hc
      simp [hd]
  have hpath : ∀ password : List Char, ∀ c ∈ (s.exposed password).path.head?, decide (c ≠ '/') = false := by
    intro password c hc
    simp [exposed_path password c hc]
  have hport : ∀ port : Option ℕ, ∀ c ∈ shownPort port, decide (c ≠ '/') = true := by
    intro port c hc
    simpa using (shownPort_spec port).2 c hc
  constructor
  · intro h
    obtain ⟨hhost, h⟩ := cut_unique (shownHost_spec hlower p) (shownHost_spec hlower q) (hrest port p)
      (hrest port' q) h
    exact ⟨hhost, cut_unique (hport port) (hport port') (hpath p) (hpath q) h⟩
  · rintro ⟨hhost, hports, hpaths⟩
    rw [hhost, hports, hpaths]

/-- Passwords without a `/`, `?` or `#` are hidden. -/
theorem hidden_of_plain (lower : List Char → List Char) (s : Server) {p q : List Char}
    (hp : ∀ c ∈ p, endsNetloc c = false) (hq : ∀ c ∈ q, endsNetloc c = false) : s.Hidden lower p q := by
  have hplain : ∀ {l : List Char}, (∀ c ∈ l, endsNetloc c = false) → l.dropWhile (!endsNetloc ·) = [] := by
    intro l hl
    exact List.dropWhile_eq_nil_iff.mpr fun c hc => by simp [hl c hc]
  unfold Hidden
  rw [exposed_plain (hplain hp), exposed_plain (hplain hq)]
  exact .inr (.inr ⟨rfl, rfl, rfl⟩)

end Server

/-- The redacted URLs of a server with two passwords are equal, or one is the placeholder, if and only if the
passwords expose the same host, port and path, or one exposes a port that cannot be parsed. -/
theorem redaction_hides_iff {lower : List Char → List Char}
    (hlower : ∀ l, ∀ c ∈ lower l, c = ':' ∨ c = '/' → c ∈ l) (s : Server) (p q : String) :
    (redactDsn lower (s.dsn p) = redactDsn lower (s.dsn q) ∨ redactDsn lower (s.dsn p) = unparseable ∨
        redactDsn lower (s.dsn q) = unparseable) ↔
      s.Hidden lower p.toList q.toList := by
  unfold Server.Hidden
  rw [s.redactDsn_dsn lower p, s.redactDsn_dsn lower q]
  cases hp : portOf (s.exposed p.toList).port with
  | error e =>
    cases e
    simp
  | ok port =>
    cases hq : portOf (s.exposed q.toList).port with
    | error e =>
      cases e
      simp
    | ok port' =>
      dsimp only
      have hparts := Server.shown_inj (s := s) hlower p.toList q.toList port port'
      have hshown : ∀ rest, String.ofList (shownScheme lower s.scheme.toList ++ ':' :: '/' :: '/' :: rest) ≠
          unparseable := fun rest => Server.shown_ne_unparseable _ _
      rw [or_iff_left (not_or.mpr ⟨hshown _, hshown _⟩), String.ofList_inj, List.append_right_inj,
        List.cons_inj_right, List.cons_inj_right, List.cons_inj_right, hparts]
      simp [Except.map]

/-- A server as in a connection URL of PostgreSQL. There is nothing in it that `str.lower` would change. -/
def Server.sample : Server where
  scheme := "postgresql"
  user := "dibs"
  host := "db.example.com"
  port := "5432"
  db := "dibs"
  undelimited := by decide

/-- Two passwords without delimiters do not show. -/
theorem redaction_hides_iff_plain : redactDsn id (Server.sample.dsn "hunter2") =
    redactDsn id (Server.sample.dsn "sw0rdf:sh") := by
  have hplain : ∀ c ∈ "hunter2".toList, endsNetloc c = false := @of_decide_eq_true _ (List.decidableBAll _ _) rfl
  have hplain' : ∀ c ∈ "sw0rdf:sh".toList, endsNetloc c = false := @of_decide_eq_true _ (List.decidableBAll _ _) rfl
  have hhidden : Server.sample.Hidden id "hunter2".toList "sw0rdf:sh".toList :=
    Server.hidden_of_plain id Server.sample hplain hplain'
  rcases (redaction_hides_iff (fun _ _ hc _ => hc) Server.sample "hunter2" "sw0rdf:sh").mpr hhidden with
    heq | hnone | hnone
  · exact heq
  · exact absurd hnone (by decide)
  · exact absurd hnone (by decide)

/-- A password that begins with a slash is shown. -/
theorem password_disclosed :
    redactDsn id (Server.sample.dsn "/hunter2") =
        "postgresql://dibs/hunter2@db.example.com:5432/dibs" ∧
      redactDsn id (Server.sample.dsn "/swordfish") =
        "postgresql://dibs/swordfish@db.example.com:5432/dibs" ∧
      ¬ (redactDsn id (Server.sample.dsn "/hunter2") = redactDsn id (Server.sample.dsn "/swordfish") ∨
        redactDsn id (Server.sample.dsn "/hunter2") = unparseable ∨
        redactDsn id (Server.sample.dsn "/swordfish") = unparseable) := by
  refine ⟨?_, ?_, ?_⟩
  · decide
  · decide
  · decide

end Dibs
