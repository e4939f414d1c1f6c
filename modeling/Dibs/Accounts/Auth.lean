import Dibs.Accounts.Tables
import Dibs.Config.Settings
import Dibs.Lib.Journal
import Dibs.Lib.Machine
import Dibs.Service.Idempotency

/-!
# The account service

`AuthService` of `services/auth_service.py`: signup, login, logout and the resolution of a bearer token, each a
coroutine over the tables of `Tables.lean`. A coroutine awaits a statement or the work of a password thread;
between its awaits others run, and an await can end in an exception, whether or not its statement took
effect. The journal lists what happened, newest first.

The hasher and `str.lower` are parameters. The digest of a token is `sha256Hex`, which is the reason for
`CollisionFree`: a digest cannot tell all tokens apart, only those that occur.
-/

namespace Dibs

/-! ## Credentials -/

/-- What `AuthService` reads of `AccountSettings`. -/
structure AccountSettings where
  sessionTtlSeconds : ℕ
  passwordMinLength : ℕ
  passwordMaxLength : ℕ
deriving DecidableEq, Repr

/-- `PasswordHasherService`: argon2 with a salt for each hash. -/
structure PasswordHasher where
  hash : (salt password : String) → String
  verify : (passwordHash password : String) → Bool

/-- The errors of `AuthService`, and `unavailable` for any other exception of an await. -/
inductive AuthError
  | emailTaken
  | invalidCredentials
  | invalidEmail
  | passwordTooShort (minimum : ℕ)
  | passwordTooLong (maximum : ℕ)
  | unavailable
deriving DecidableEq, Repr

/-- The texts of the errors that the routes show. -/
def AuthError.message : AuthError → Option String
  | emailTaken => some "An account with that email already exists."
  | invalidCredentials => some "Invalid email or password."
  | invalidEmail => some "Enter a valid email address."
  | passwordTooShort minimum => some ("Password must be at least " ++ toString minimum ++ " characters.")
  | passwordTooLong maximum => some ("Password must be at most " ++ toString maximum ++ " characters.")
  | unavailable => none

/-- A character of `[^@\s]`. -/
def isAddressChar (c : Char) : Bool := c ≠ '@' && !isSpace c

/-- Whether a text is `[^@\s]+\.[^@\s]+`: a dot stands inside it, and no other character is excluded. -/
def isDomain (text : List Char) : Bool :=
  text.all isAddressChar && (text.drop 1).dropLast.contains '.'

/-- `_EMAIL_RE.match` of a text without white space at its ends. -/
def isEmail (text : List Char) : Bool :=
  let name := text.takeWhile isAddressChar
  match text.dropWhile isAddressChar with
  | '@' :: domain => name ≠ [] && isDomain domain
  | _ => false

/-- The domains are the texts with characters before and after a dot. -/
theorem isDomain_iff {text : List Char} : isDomain text = true ↔
    ∃ host zone, text = host ++ '.' :: zone ∧ host ≠ [] ∧ zone ≠ [] ∧
      (∀ c ∈ host, isAddressChar c = true) ∧ ∀ c ∈ zone, isAddressChar c = true := by
  simp only [isDomain, Bool.and_eq_true, List.all_eq_true, List.contains_iff_mem]
  constructor
  · rintro ⟨hall, hdot⟩
    obtain ⟨before, after, hsplit⟩ := List.append_of_mem hdot
    cases text with
    | nil => simp at hsplit
    | cons first rest =>
      have hrest : rest ≠ [] := by
        rintro rfl
        simp at hsplit
      have htext : first :: rest = (first :: before) ++ '.' :: (after ++ [rest.getLast hrest]) := by
        have hlast := List.dropLast_append_getLast hrest
        rw [show rest.dropLast = before ++ '.' :: after from hsplit] at hlast
        simpa using hlast.symm
      rw [htext] at hall ⊢
      refine ⟨first :: before, after ++ [rest.getLast hrest], rfl, by simp, by simp, ?_, ?_⟩
      · exact fun c hc => hall c (List.mem_append_left _ hc)
      · exact fun c hc => hall c (List.mem_append_right _ (List.mem_cons_of_mem _ hc))
  · rintro ⟨host, zone, rfl, hhost, hzone, hhostAll, hzoneAll⟩
    constructor
    · intro c hc
      obtain hc | hc := List.mem_append.mp hc
      · exact hhostAll c hc
      · obtain rfl | hc := List.mem_cons.mp hc
        · decide
        · exact hzoneAll c hc
    · obtain ⟨first, host, rfl⟩ := List.exists_cons_of_ne_nil hhost
      rw [List.cons_append, List.drop_one, List.tail_cons, List.dropLast_append_cons,
        List.dropLast_cons_of_ne_nil hzone]
      exact List.mem_append_right _ List.mem_cons_self

/-- The texts that `_EMAIL_RE` matches: a name, an at sign, and a domain with an inner dot. -/
theorem isEmail_iff {text : List Char} : isEmail text = true ↔
    ∃ name host zone, text = name ++ '@' :: (host ++ '.' :: zone) ∧ name ≠ [] ∧ host ≠ [] ∧ zone ≠ [] ∧
      ∀ c ∈ name ++ host ++ zone, isAddressChar c = true := by
  constructor
  · intro h
    unfold isEmail at h
    have hcut := List.takeWhile_append_dropWhile (p := isAddressChar) (l := text)
    generalize hname : text.takeWhile isAddressChar = name at h hcut
    have hall : ∀ c ∈ name, isAddressChar c = true := by
      rw [← hname]
      exact fun c hc => List.mem_takeWhile_imp hc
    split at h
    · rename_i domain hdomain
      rw [hdomain] at hcut
      simp only [Bool.and_eq_true, decide_eq_true_eq] at h
      obtain ⟨host, zone, rfl, hhost, hzone, hhostAll, hzoneAll⟩ := isDomain_iff.mp h.2
      refine ⟨name, host, zone, hcut.symm, h.1, hhost, hzone, fun c hc => ?_⟩
      obtain hc | hc := List.mem_append.mp hc
      · obtain hc | hc := List.mem_append.mp hc
        · exact hall c hc
        · exact hhostAll c hc
      · exact hzoneAll c hc
    · cases h
  · rintro ⟨name, host, zone, rfl, hname, hhost, hzone, hall⟩
    have hnameAll : ∀ c ∈ name, isAddressChar c = true :=
      fun c hc => hall c (List.mem_append_left _ (List.mem_append_left _ hc))
    have htake : (name ++ '@' :: (host ++ '.' :: zone)).takeWhile isAddressChar = name := by
      rw [List.takeWhile_append_of_pos hnameAll, List.takeWhile_cons_of_neg (by decide), List.append_nil]
    have hdrop : (name ++ '@' :: (host ++ '.' :: zone)).dropWhile isAddressChar =
        '@' :: (host ++ '.' :: zone) := by
      rw [List.dropWhile_append_of_pos hnameAll, List.dropWhile_cons_of_neg (by decide)]
    simp only [isEmail, htake, hdrop, Bool.and_eq_true, decide_eq_true_eq]
    exact ⟨hname, isDomain_iff.mpr ⟨host, zone, rfl, hhost, hzone,
      fun c hc => hall c (List.mem_append_left _ (List.mem_append_right _ hc)),
      fun c hc => hall c (List.mem_append_right _ hc)⟩⟩

/-- `_normalize_email`; none is an `InvalidEmailError`. -/
def normalizeEmail (lower : String → String) (email : String) : Option String :=
  let normalized := lower (pyStrip email)
  if isEmail normalized.toList then some normalized else none

/-- `_check_password`. -/
def checkPassword (settings : AccountSettings) (password : String) : Option AuthError :=
  if password.toList.length < settings.passwordMinLength then
    some (.passwordTooShort settings.passwordMinLength)
  else if settings.passwordMaxLength < password.toList.length then
    some (.passwordTooLong settings.passwordMaxLength)
  else none

/-- `hash_token`. -/
def hashToken (rawToken : String) : String := sha256Hex rawToken

/-! ## The coroutines -/

/-- A call of the service. -/
inductive AuthRequest
  | signup (email password : String)
  | login (email password : String)
  | logout (rawToken : String)
  | authenticate (rawToken : Option String)
deriving DecidableEq, Repr

/-- How a call ends. -/
inductive AuthOutcome
  | signedIn (user : User) (token : String)
  | loggedOut
  | resolved (user : Option User)
  | raised (error : AuthError)
deriving DecidableEq, Repr

/-- Where a call stands: what it awaits, with the locals that it still needs. -/
inductive AuthPc
  /-- Not called. -/
  | idle
  /-- `signup` awaits the hash of the password. -/
  | hashing (email password : String)
  /-- `signup` awaits `create_user`. -/
  | creating (email password passwordHash : String)
  /-- `login` awaits `get_by_email`. -/
  | fetching (email password : String)
  /-- `login` awaits `verify`. -/
  | verifying (stored : StoredUser) (password : String)
  /-- `login` awaits `dummy_verify`. -/
  | equalizing (password : String)
  /-- `_issue_session` awaits the insertion. -/
  | opening (user : User) (token : String) (session : Session)
  /-- `logout` awaits `revoke`. -/
  | revoking (token : String)
  /-- `authenticate` awaits `get_by_token_hash`. -/
  | looking (token : String)
  /-- `authenticate` found a session that is live at an instant, and awaits `get_by_id`. -/
  | resolving (token : String) (checkedAt : Time) (session : Session)
  /-- The call is over. -/
  | done (outcome : AuthOutcome)
deriving DecidableEq, Repr

/-- What an await returns. -/
inductive AuthAnswer
  | hashed (passwordHash : String)
  | verified (valid : Bool)
  | created (user : User)
  | duplicateEmail
  | stored (user : Option StoredUser)
  | session (session : Option Session)
  | user (user : Option User)
  | unit
  | failed
deriving DecidableEq, Repr

/-- Whether a call awaits something. -/
def AuthPc.awaits : AuthPc → Bool
  | idle => false
  | done _ => false
  | _ => true

/-- A call up to its first await. -/
def AuthService.begin (lower : String → String) (settings : AccountSettings) : AuthRequest → AuthPc
  | .signup email password => match normalizeEmail lower email with
    | none => .done (.raised .invalidEmail)
    | some normalized => match checkPassword settings password with
      | some error => .done (.raised error)
      | none => .hashing normalized password
  | .login email password => match normalizeEmail lower email with
    | none => .done (.raised .invalidEmail)
    | some normalized => .fetching normalized password
  | .logout rawToken => .revoking rawToken
  | .authenticate none => .done (.resolved none)
  | .authenticate (some rawToken) => if rawToken = "" then .done (.resolved none) else .looking rawToken

/-- `_issue_session` up to its await, with the token it draws at `now`. -/
def AuthService.issueSession (settings : AccountSettings) (user : User) (raw : String) (now : Time) : AuthPc :=
  .opening user raw ⟨hashToken raw, user.id, now, now + settings.sessionTtlSeconds * 1000000⟩

/-- What the await of a call does where it is executed: its answer, and the tables after it. Postgres draws an id
and an instant for a new account, argon2 a salt. -/
def AuthService.execute (hasher : PasswordHasher) (salt id : String) (createdAt : Time) (t : AccountTables) :
    AuthPc → AuthAnswer × AccountTables
  | .hashing _ password => (.hashed (hasher.hash salt password), t)
  | .creating email _ passwordHash => match t.createUser id createdAt email passwordHash with
    | none => (.duplicateEmail, t)
    | some t' => (.created ⟨id, email, createdAt⟩, t')
  | .fetching email _ => (.stored (t.getByEmail email), t)
  | .verifying stored password => (.verified (hasher.verify stored.passwordHash password), t)
  | .equalizing _ => (.unit, t)
  | .opening _ _ session => match t.createSession session with
    | none => (.failed, t)
    | some t' => (.unit, t')
  | .revoking token => (.unit, t.revoke (hashToken token))
  | .looking token => (.session (t.getByTokenHash (hashToken token)), t)
  | .resolving _ _ session => (.user (t.getById session.userId), t)
  | .idle | .done _ => (.failed, t)

/-- A call after the answer of its await, up to the next one. `token` is what it draws if it opens a session, and
`now` is the clock. -/
def AuthService.resume (settings : AccountSettings) (token : String) (now : Time) : AuthPc → AuthAnswer → AuthPc
  | .hashing email password, .hashed passwordHash => .creating email password passwordHash
  | .creating _ _ _, .created user => AuthService.issueSession settings user token now
  | .creating _ _ _, .duplicateEmail => .done (.raised .emailTaken)
  | .fetching _ password, .stored (some stored) => .verifying stored password
  | .fetching _ password, .stored none => .equalizing password
  | .verifying stored _, .verified true => AuthService.issueSession settings stored.toPublic token now
  | .verifying _ _, .verified false => .done (.raised .invalidCredentials)
  | .equalizing _, .unit => .done (.raised .invalidCredentials)
  | .opening user token _, .unit => .done (.signedIn user token)
  | .revoking _, .unit => .done .loggedOut
  | .looking _, .session none => .done (.resolved none)
  | .looking token, .session (some session) =>
    if session.expiresAt ≤ now then .done (.resolved none) else .resolving token now session
  | .resolving _ _ _, .user user => .done (.resolved user)
  | _, _ => .done (.raised .unavailable)

end Dibs
