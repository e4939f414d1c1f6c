import Mathlib.Logic.Function.Basic
import Dibs.Accounts.Auth

/-!
# Any number of calls of the account service

The system is the tables, a clock and any number of calls, each at its own await. Its steps are those of
single calls, in any order: a call starts, its await is executed, it goes on with the answer, or the await
ends in an exception, before or after it was executed. The clock is set freely.

`Sound` says what a call knows where it stands, in terms of the journal, and is kept by the steps of every
other call. `authenticate_exact` and `sessions_earned` read the journal: what a token resolves to, and how an
account's sessions came about.
-/

namespace Dibs

/-- A call, with the answer of its await once that is executed. -/
structure AuthCall where
  pc : AuthPc
  answer : Option AuthAnswer

/-- What happened to the accounts. -/
inductive AuthEvent (κ : Type*)
  | started (k : κ) (request : AuthRequest)
  /-- An account was inserted for a signup with this password. -/
  | created (k : κ) (user : StoredUser) (password : String)
  /-- A session was inserted for a token. -/
  | opened (k : κ) (token : String) (session : Session)
  /-- The session of a token was deleted. -/
  | revoked (k : κ) (token : String)
  /-- The session of a token was selected. -/
  | looked (k : κ) (token : String)
  /-- A token was resolved, with the clock as it was when the session's expiry was checked. -/
  | answered (k : κ) (token : String) (now : Time) (user : Option User)
deriving DecidableEq

/-- The tables, the clock and the calls. -/
structure AuthSys (κ : Type*) where
  tables : AccountTables
  now : Time
  calls : κ → AuthCall
  journal : List (AuthEvent κ)

/-- What can happen next. -/
inductive AuthStep (κ : Type*)
  | start (k : κ) (request : AuthRequest)
  /-- The await of a call is executed, with what argon2 and Postgres draw. -/
  | execute (k : κ) (salt id : String) (createdAt : Time)
  /-- A call goes on; `token` is what it draws if it opens a session. -/
  | resume (k : κ) (token : String)
  /-- The await of a call ends in an exception. -/
  | fail (k : κ)
  /-- The clock is read anew. -/
  | clock (now : Time)

variable {κ : Type*}

/-! ## Readings of the journal -/

namespace AuthEvent

/-- The events of an executed await. -/
def executed (k : κ) : AuthPc → AuthAnswer → List (AuthEvent κ)
  | .creating email password passwordHash, .created user =>
    [created k ⟨user.id, email, user.createdAt, passwordHash⟩ password]
  | .opening _ token session, .unit => [opened k token session]
  | .revoking token, .unit => [revoked k token]
  | .looking token, .session _ => [looked k token]
  | _, _ => []

/-- The events of a call that goes on, by where it was and where it comes. -/
def resumed (k : κ) (now : Time) : AuthPc → AuthPc → List (AuthEvent κ)
  | .looking token, .done (.resolved user) => [answered k token now user]
  | .resolving token checkedAt _, .done (.resolved user) => [answered k token checkedAt user]
  | _, _ => []

/-- The write of an event to the sessions, by the token. -/
def write : AuthEvent κ → Option (String × Option Session)
  | opened _ token session => some (token, some session)
  | revoked _ token => some (token, none)
  | _ => none

/-- The token that an event is about. -/
def token? : AuthEvent κ → Option String
  | opened _ token _ | revoked _ token | looked _ token => some token
  | _ => none

/-- The account that an event creates. -/
def account : AuthEvent κ → Option StoredUser
  | created _ user _ => some user
  | _ => none

end AuthEvent

open AuthEvent

/-- The session of a token after a journal: the one that was opened for it last, unless it was revoked since. -/
def sessionOf (journal : List (AuthEvent κ)) (token : String) : Option Session :=
  latest (journal.filterMap write) token

/-- The account of an id after a journal. -/
def accountOf (journal : List (AuthEvent κ)) (id : String) : Option StoredUser :=
  (journal.filterMap account).reverse.find? fun u => decide (u.id = id)

/-- The tokens that occur in a journal. -/
def tokensOf (journal : List (AuthEvent κ)) : List String := journal.filterMap token?

/-- No two tokens that occur have one digest. -/
def CollisionFree (journal : List (AuthEvent κ)) : Prop := Set.InjOn hashToken {t | t ∈ tokensOf journal}

/-- What was asked of a call. -/
def SignupAsked (lower : String → String) (settings : AccountSettings) (journal : List (AuthEvent κ)) (k : κ)
    (email password : String) : Prop :=
  ∃ given, started k (.signup given password) ∈ journal ∧ normalizeEmail lower given = some email ∧
    checkPassword settings password = none

/-- What was asked of a call. -/
def LoginAsked (lower : String → String) (journal : List (AuthEvent κ)) (k : κ) (email password : String) : Prop :=
  ∃ given, started k (.login given password) ∈ journal ∧ normalizeEmail lower given = some email

/-- An account was created by a signup, with the hash of its password. -/
def Registered (lower : String → String) (settings : AccountSettings) (hasher : PasswordHasher)
    (journal : List (AuthEvent κ)) (k : κ) (u : StoredUser) (password : String) : Prop :=
  created k u password ∈ journal ∧ SignupAsked lower settings journal k u.email password ∧
    ∃ salt, u.passwordHash = hasher.hash salt password

/-- A call may have a session of an account: it is the signup that created it, or a login with its email and a
password that its hash verifies. -/
def Earned (lower : String → String) (settings : AccountSettings) (hasher : PasswordHasher)
    (journal : List (AuthEvent κ)) (k : κ) (u : StoredUser) : Prop :=
  ∃ creator password, Registered lower settings hasher journal creator u password ∧
    (creator = k ∨ ∃ given, LoginAsked lower journal k u.email given ∧ hasher.verify u.passwordHash given = true)

/-- A call may act as an account: it is the signup or login that has a session of it, or it presented the token of a
session that such a call opened. -/
def ActsAs (lower : String → String) (settings : AccountSettings) (hasher : PasswordHasher)
    (journal : List (AuthEvent κ)) (k : κ) (user : User) : Prop :=
  ∃ u, u.toPublic = user ∧ (Earned lower settings hasher journal k u ∨
    ∃ token opener session, started k (.authenticate (some token)) ∈ journal ∧
      opened opener token session ∈ journal ∧ session.userId = u.id ∧ session.tokenHash = hashToken token ∧
      Earned lower settings hasher journal opener u)

/-- What a token resolves to when its session was selected after a journal and its expiry checked at an instant. -/
def resolution (journal : List (AuthEvent κ)) (token : String) (now : Time) : Option User :=
  (sessionOf journal token).bind fun session =>
    if session.expiresAt ≤ now then none else (accountOf journal session.userId).map StoredUser.toPublic

/-! ### More events -/

section Readings

variable {lower : String → String} {settings : AccountSettings} {hasher : PasswordHasher}
  {journal events : List (AuthEvent κ)}

@[simp] theorem accountOf_nil (id : String) : accountOf ([] : List (AuthEvent κ)) id = none := rfl

/-- An account that is there stays. -/
theorem accountOf_append (events : List (AuthEvent κ)) {id : String} {u : StoredUser}
    (h : accountOf journal id = some u) : accountOf (events ++ journal) id = some u := by
  unfold accountOf at h ⊢
  rw [List.filterMap_append, List.reverse_append, List.find?_append, h]
  rfl

/-- Events that create no account leave the accounts alone. -/
theorem accountOf_of_none (h : ∀ e ∈ events, account e = none) (id : String) :
    accountOf (events ++ journal) id = accountOf journal id := by
  unfold accountOf
  rw [List.filterMap_append, List.filterMap_eq_nil_iff.mpr h, List.nil_append]

/-- A created account is there. -/
theorem accountOf_created {id : String} (k : κ) (u : StoredUser) (p : String) (h : accountOf journal u.id = none) :
    accountOf (created k u p :: journal) id = if u.id = id then some u else accountOf journal id := by
  have hcons : (created k u p :: journal).filterMap account = u :: journal.filterMap account := rfl
  unfold accountOf at h ⊢
  rw [hcons, List.reverse_cons, List.find?_append]
  split_ifs with hid
  · subst hid
    rw [h]
    simp
  · simp [hid]

theorem SignupAsked.append {k : κ} {email password : String} (h : SignupAsked lower settings journal k email password) :
    SignupAsked lower settings (events ++ journal) k email password := by
  obtain ⟨given, hstarted, hemail⟩ := h
  exact ⟨given, List.mem_append_right _ hstarted, hemail⟩

theorem LoginAsked.append {k : κ} {email password : String} (h : LoginAsked lower journal k email password) :
    LoginAsked lower (events ++ journal) k email password := by
  obtain ⟨given, hstarted, hemail⟩ := h
  exact ⟨given, List.mem_append_right _ hstarted, hemail⟩

theorem Registered.append {k : κ} {u : StoredUser} {password : String}
    (h : Registered lower settings hasher journal k u password) :
    Registered lower settings hasher (events ++ journal) k u password :=
  ⟨List.mem_append_right _ h.1, h.2.1.append, h.2.2⟩

theorem Earned.append {k : κ} {u : StoredUser} (h : Earned lower settings hasher journal k u) :
    Earned lower settings hasher (events ++ journal) k u := by
  obtain ⟨creator, password, hregistered, how⟩ := h
  refine ⟨creator, password, hregistered.append, how.imp_right ?_⟩
  rintro ⟨given, hasked, hverified⟩
  exact ⟨given, hasked.append, hverified⟩

theorem ActsAs.append {k : κ} {user : User} (h : ActsAs lower settings hasher journal k user) :
    ActsAs lower settings hasher (events ++ journal) k user := by
  obtain ⟨u, hu, hearned | ⟨token, opener, session, hstarted, hopened, huser, hhash, hearned⟩⟩ := h
  · exact ⟨u, hu, .inl hearned.append⟩
  · exact ⟨u, hu, .inr ⟨token, opener, session, List.mem_append_right _ hstarted, List.mem_append_right _ hopened,
      huser, hhash, hearned.append⟩⟩

/-- Fewer tokens have fewer collisions. -/
theorem CollisionFree.of_append (h : CollisionFree (events ++ journal)) : CollisionFree journal := by
  refine Set.InjOn.mono ?_ h
  intro t ht
  show t ∈ tokensOf (events ++ journal)
  unfold tokensOf
  rw [List.filterMap_append]
  exact List.mem_append_right _ ht

end Readings

/-! ## What a call knows -/

section Sound

variable (lower : String → String) (settings : AccountSettings) (hasher : PasswordHasher)
  (journal : List (AuthEvent κ)) (k : κ)

/-- The session of a token was selected, and this was found: a session of an account, and the one that the
journal says as long as no digests collide. -/
def Looked (token : String) (found : Option Session) : Prop :=
  ∃ newer older, journal = newer ++ looked k token :: older ∧
    (∀ session, found = some session → (accountOf older session.userId).isSome = true) ∧
    (CollisionFree (looked k token :: older) → found = sessionOf older token)

/-- What a call knows where it stands. -/
def AuthPc.Sound : AuthPc → Prop
  | .hashing email password => SignupAsked lower settings journal k email password
  | .creating email password passwordHash => SignupAsked lower settings journal k email password ∧
    ∃ salt, passwordHash = hasher.hash salt password
  | .fetching email password => LoginAsked lower journal k email password
  | .verifying stored password => LoginAsked lower journal k stored.email password ∧
    ∃ creator given, Registered lower settings hasher journal creator stored given
  | .opening user token session => session.userId = user.id ∧ session.tokenHash = hashToken token ∧
    ∃ stored, stored.toPublic = user ∧ Earned lower settings hasher journal k stored
  | .looking token => started k (.authenticate (some token)) ∈ journal
  | .resolving token checkedAt session => started k (.authenticate (some token)) ∈ journal ∧
    Looked journal k token (some session) ∧ checkedAt < session.expiresAt
  | .done (.signedIn user token) => ∃ session, opened k token session ∈ journal ∧ session.userId = user.id ∧
    ∃ stored, stored.toPublic = user ∧ Earned lower settings hasher journal k stored
  | .done (.resolved (some user)) => ∃ token now, answered k token now (some user) ∈ journal
  | _ => True

/-- What a call knows when its await is answered. -/
def AuthPc.Told : AuthPc → AuthAnswer → Prop
  | .hashing _ password, .hashed passwordHash => ∃ salt, passwordHash = hasher.hash salt password
  | .creating _ password _, .created user => ∃ stored, stored.toPublic = user ∧
    Registered lower settings hasher journal k stored password
  | .fetching email _, .stored (some stored) => stored.email = email ∧
    ∃ creator given, Registered lower settings hasher journal creator stored given
  | .verifying stored password, .verified true => hasher.verify stored.passwordHash password = true
  | .looking token, .session found => Looked journal k token found
  | .resolving _ _ session, .user user => user = (accountOf journal session.userId).map StoredUser.toPublic
  | .opening _ token session, .unit => opened k token session ∈ journal
  | _, _ => True

variable {lower settings hasher journal k}

theorem Looked.append {events : List (AuthEvent κ)} {token : String} {found : Option Session}
    (h : Looked journal k token found) : Looked (events ++ journal) k token found := by
  obtain ⟨newer, older, rfl, hfound⟩ := h
  exact ⟨events ++ newer, older, (List.append_assoc _ _ _).symm, hfound⟩

/-- An account that was there when a session was selected is there. -/
theorem Looked.account {token : String} {session : Session} (h : Looked journal k token (some session)) :
    (accountOf journal session.userId).isSome = true := by
  obtain ⟨newer, older, rfl, haccount, -⟩ := h
  obtain ⟨u, hu⟩ := Option.isSome_iff_exists.mp (haccount session rfl)
  have hlater := accountOf_append (newer ++ [looked k token]) hu
  rw [List.append_assoc, List.singleton_append] at hlater
  rw [hlater]
  rfl

/-- More events change nothing about what a call knows where it stands. -/
theorem AuthPc.Sound.append {events : List (AuthEvent κ)} {pc : AuthPc}
    (h : pc.Sound lower settings hasher journal k) : pc.Sound lower settings hasher (events ++ journal) k := by
  cases pc with
  | hashing email password => exact SignupAsked.append h
  | creating email password passwordHash => exact ⟨h.1.append, h.2⟩
  | fetching email password => exact LoginAsked.append h
  | verifying stored password =>
    obtain ⟨hasked, creator, given, hregistered⟩ := h
    exact ⟨hasked.append, creator, given, hregistered.append⟩
  | opening user token session =>
    obtain ⟨huser, hhash, stored, hstored, hearned⟩ := h
    exact ⟨huser, hhash, stored, hstored, hearned.append⟩
  | resolving token checkedAt session => exact ⟨List.mem_append_right _ h.1, h.2.1.append, h.2.2⟩
  | idle => trivial
  | equalizing password => trivial
  | revoking token => trivial
  | looking token => exact List.mem_append_right _ h
  | done outcome =>
    cases outcome with
    | signedIn user token =>
      obtain ⟨session, hopened, huser, stored, hstored, hearned⟩ := h
      exact ⟨session, List.mem_append_right _ hopened, huser, stored, hstored, hearned.append⟩
    | resolved user =>
      cases user with
      | none => trivial
      | some user =>
        obtain ⟨token, now, hanswered⟩ := h
        exact ⟨token, now, List.mem_append_right _ hanswered⟩
    | loggedOut => trivial
    | raised error => trivial

/-- More events change nothing about what a call knows of its answer. -/
theorem AuthPc.Told.append {events : List (AuthEvent κ)} {pc : AuthPc} {answer : AuthAnswer}
    (hpc : pc.Sound lower settings hasher journal k) (h : pc.Told lower settings hasher journal k answer) :
    pc.Told lower settings hasher (events ++ journal) k answer := by
  unfold AuthPc.Told at h ⊢
  split
  · exact h
  · obtain ⟨stored, hstored, hregistered⟩ := h
    exact ⟨stored, hstored, hregistered.append⟩
  · obtain ⟨hemail, creator, given, hregistered⟩ := h
    exact ⟨hemail, creator, given, hregistered.append⟩
  · exact h
  · exact Looked.append h
  · dsimp only at h
    obtain ⟨u, hu⟩ := Option.isSome_iff_exists.mp hpc.2.1.account
    rw [h, hu, accountOf_append events hu]
  · exact List.mem_append_right _ h
  · trivial

/-- An account of the journal was created by it. -/
theorem created_of_accountOf {journal : List (AuthEvent κ)} {id : String} {u : StoredUser}
    (h : accountOf journal id = some u) : ∃ k p, created k u p ∈ journal := by
  have hmem := List.mem_reverse.mp (List.mem_of_find?_eq_some h)
  obtain ⟨e, he, haccount⟩ := List.mem_filterMap.mp hmem
  cases e <;> simp only [account, reduceCtorEq, Option.some.injEq] at haccount
  rename_i k u' p
  subst haccount
  exact ⟨k, p, he⟩

/-- A call comes to its first await with what was asked of it. -/
theorem begin_sound (journal : List (AuthEvent κ)) (request : AuthRequest) :
    (AuthService.begin lower settings request).Sound lower settings hasher ([started k request] ++ journal) k := by
  cases request with
  | signup email password =>
    simp only [AuthService.begin]
    split
    · trivial
    · rename_i normalized hemail
      split
      · trivial
      · rename_i hpolicy
        exact ⟨email, List.mem_cons_self, hemail, hpolicy⟩
  | login email password =>
    simp only [AuthService.begin]
    split
    · trivial
    · rename_i normalized hemail
      exact ⟨email, List.mem_cons_self, hemail⟩
  | logout rawToken => trivial
  | authenticate rawToken =>
    cases rawToken with
    | none => trivial
    | some rawToken =>
      simp only [AuthService.begin]
      split
      · trivial
      · exact List.mem_cons_self

/-- A session is opened with what the call knows. -/
theorem issueSession_sound {journal : List (AuthEvent κ)} {stored : StoredUser} (raw : String) (now : Time)
    (h : Earned lower settings hasher journal k stored) :
    (AuthService.issueSession settings stored.toPublic raw now).Sound lower settings hasher journal k :=
  ⟨rfl, rfl, stored, rfl, h⟩

/-- A call goes on with what it should know. -/
theorem resume_sound {journal : List (AuthEvent κ)} {pc : AuthPc} {answer : AuthAnswer} (token : String) (now : Time)
    (hsound : pc.Sound lower settings hasher journal k) (htold : pc.Told lower settings hasher journal k answer) :
    (AuthService.resume settings token now pc answer).Sound lower settings hasher
      (resumed k now pc (AuthService.resume settings token now pc answer) ++ journal) k := by
  unfold AuthService.resume
  split
  · exact ⟨hsound, htold⟩
  · obtain ⟨stored, rfl, hregistered⟩ := htold
    exact issueSession_sound token now ⟨k, _, hregistered, .inl rfl⟩
  · trivial
  · obtain ⟨rfl, hregistered⟩ := htold
    exact ⟨hsound, hregistered⟩
  · trivial
  · obtain ⟨hasked, creator, given, hregistered⟩ := hsound
    exact issueSession_sound token now ⟨creator, given, hregistered, .inr ⟨_, hasked, htold⟩⟩
  · trivial
  · trivial
  · obtain ⟨huser, -, stored, hstored, hearned⟩ := hsound
    exact ⟨_, htold, huser, stored, hstored, hearned⟩
  · trivial
  · trivial
  · split
    · trivial
    · rename_i hlive
      exact ⟨hsound, htold, not_le.mp hlive⟩
  · rename_i tok checkedAt session user
    cases user with
    | none => trivial
    | some user => exact ⟨tok, checkedAt, List.mem_cons_self⟩
  · trivial

/-- The resolution of a token whose session was selected. -/
theorem Looked.resolution_of_none {journal : List (AuthEvent κ)} {token : String}
    (h : Looked journal k token none) (now : Time) : ∃ newer before, journal = newer ++ looked k token :: before ∧
      (CollisionFree (looked k token :: before) → none = resolution before token now) := by
  obtain ⟨newer, before, hsplit, -, hfound⟩ := h
  refine ⟨newer, before, hsplit, fun hfree => ?_⟩
  rw [resolution, ← hfound hfree]
  rfl

/-- The resolution of a token whose session was selected. -/
theorem Looked.resolution_of_some {journal : List (AuthEvent κ)} {token : String} {session : Session}
    (h : Looked journal k token (some session)) (now : Time) : ∃ newer before,
      journal = newer ++ looked k token :: before ∧
      (CollisionFree (looked k token :: before) →
        (if session.expiresAt ≤ now then none else (accountOf journal session.userId).map StoredUser.toPublic) =
          resolution before token now) := by
  obtain ⟨newer, before, rfl, haccount, hfound⟩ := h
  refine ⟨newer, before, rfl, fun hfree => ?_⟩
  obtain ⟨u, hu⟩ := Option.isSome_iff_exists.mp (haccount session rfl)
  have hlater := accountOf_append (newer ++ [looked k token]) hu
  rw [List.append_assoc, List.singleton_append] at hlater
  rw [resolution, ← hfound hfree, Option.bind_some, hu, hlater]

end Sound

/-! ## The system -/

section System

variable [DecidableEq κ] (lower : String → String) (settings : AccountSettings) (hasher : PasswordHasher)

namespace AuthSys

/-- The system with another state of one call, and more events. -/
def set (s : AuthSys κ) (k : κ) (call : AuthCall) (events : List (AuthEvent κ)) : AuthSys κ :=
  { s with calls := Function.update s.calls k call, journal := events ++ s.journal }

/-- Where a step can be taken. -/
def allowed (s : AuthSys κ) : AuthStep κ → Prop
  | .start k _ => (s.calls k).pc = .idle
  | .execute k _ _ _ => (s.calls k).pc.awaits = true ∧ (s.calls k).answer = none
  | .resume k _ => (s.calls k).answer.isSome = true
  | .fail k => (s.calls k).pc.awaits = true
  | .clock _ => True

instance (s : AuthSys κ) : DecidablePred s.allowed
  | .start k _ => inferInstanceAs (Decidable ((s.calls k).pc = .idle))
  | .execute k _ _ _ => inferInstanceAs (Decidable ((s.calls k).pc.awaits = true ∧ (s.calls k).answer = none))
  | .resume k _ => inferInstanceAs (Decidable ((s.calls k).answer.isSome = true))
  | .fail k => inferInstanceAs (Decidable ((s.calls k).pc.awaits = true))
  | .clock _ => inferInstanceAs (Decidable True)

/-- One step. -/
def exec : AuthStep κ → AuthSys κ → AuthSys κ
  | .start k request, s => s.set k ⟨AuthService.begin lower settings request, none⟩ [started k request]
  | .execute k salt id createdAt, s =>
    let pc := (s.calls k).pc
    let result := AuthService.execute hasher salt id createdAt s.tables pc
    { s.set k ⟨pc, some result.1⟩ (executed k pc result.1) with tables := result.2 }
  | .resume k token, s => match (s.calls k).answer with
    | none => s
    | some answer =>
      let pc := AuthService.resume settings token s.now (s.calls k).pc answer
      s.set k ⟨pc, none⟩ (resumed k s.now (s.calls k).pc pc)
  | .fail k, s => s.set k ⟨.done (.raised .unavailable), none⟩ []
  | .clock now, s => { s with now := now }

/-- The account service as a machine, from empty tables. -/
def machine : Machine (AuthSys κ) (AuthStep κ) where
  init s := s.tables = .empty ∧ s.journal = [] ∧ ∀ k, s.calls k = ⟨.idle, none⟩
  allowed s i := s.allowed i
  exec := exec lower settings hasher

/-- Where a step can be taken is computed. -/
instance (s : AuthSys κ) (i : AuthStep κ) : Decidable ((machine lower settings hasher).allowed s i) :=
  inferInstanceAs (Decidable (s.allowed i))

@[simp] theorem set_tables (s : AuthSys κ) (k : κ) (call : AuthCall) (events : List (AuthEvent κ)) :
    (s.set k call events).tables = s.tables := rfl

@[simp] theorem set_journal (s : AuthSys κ) (k : κ) (call : AuthCall) (events : List (AuthEvent κ)) :
    (s.set k call events).journal = events ++ s.journal := rfl

@[simp] theorem set_calls (s : AuthSys κ) (k : κ) (call : AuthCall) (events : List (AuthEvent κ)) :
    (s.set k call events).calls = Function.update s.calls k call := rfl

/-- A step only adds events. -/
theorem exec_journal (i : AuthStep κ) (s : AuthSys κ) :
    ∃ events, (exec lower settings hasher i s).journal = events ++ s.journal := by
  cases i with
  | start k request => exact ⟨_, rfl⟩
  | execute k salt id createdAt => exact ⟨_, rfl⟩
  | resume k token =>
    simp only [exec]
    split
    · exact ⟨[], rfl⟩
    · exact ⟨_, rfl⟩
  | fail k => exact ⟨[], rfl⟩
  | clock now => exact ⟨[], rfl⟩

/-! ### The invariant -/

/-- What an entry of the journal says about those before it. -/
def Entry : AuthEvent κ → List (AuthEvent κ) → Prop
  | .opened k token session, older => session.tokenHash = hashToken token ∧
    ∃ u, u.id = session.userId ∧ Earned lower settings hasher older k u
  | .answered k token now user, older => started k (.authenticate (some token)) ∈ older ∧
    ∃ newer before, older = newer ++ looked k token :: before ∧
      (CollisionFree (looked k token :: before) → user = resolution before token now)
  | _, _ => True

/-- The invariant: the journal tells the tables, its entries are what they should be, and every call knows what it
should where it stands. -/
structure Inv (s : AuthSys κ) : Prop where
  /-- The accounts are those of the journal. -/
  users : ∀ id, s.tables.users.get? id = accountOf s.journal id
  /-- The sessions are those of the journal, for all tokens among which no digests collide. -/
  sessions : ∀ keys : Set String, (∀ t ∈ tokensOf s.journal, t ∈ keys) → Set.InjOn hashToken keys →
    Represents hashToken s.tables.sessions keys (s.journal.filterMap write)
  /-- A created account is in the tables, and was registered by a signup. -/
  registered : ∀ k u p, created k u p ∈ s.journal → s.tables.users.get? u.id = some u ∧
    Registered lower settings hasher s.journal k u p
  /-- No email has two accounts. -/
  emails : ((s.journal.filterMap account).map StoredUser.email).Nodup
  /-- The entries of the journal. -/
  entries : Each (Entry lower settings hasher) s.journal
  /-- The calls. -/
  calls : ∀ k, (s.calls k).pc.Sound lower settings hasher s.journal k ∧
    ∀ answer, (s.calls k).answer = some answer →
      (s.calls k).pc.Told lower settings hasher s.journal k answer

variable {lower settings hasher} {s : AuthSys κ} {k : κ} {call : AuthCall} {events : List (AuthEvent κ)}

/-- What the other calls know stays, and the one that moves has to know what it should. -/
theorem Inv.calls_set (h : s.Inv lower settings hasher)
    (hcall : call.pc.Sound lower settings hasher (events ++ s.journal) k ∧ ∀ answer, call.answer = some answer →
      call.pc.Told lower settings hasher (events ++ s.journal) k answer) (k' : κ) :
    (((s.set k call events).calls k').pc.Sound lower settings hasher (events ++ s.journal) k') ∧
      ∀ answer, ((s.set k call events).calls k').answer = some answer →
        ((s.set k call events).calls k').pc.Told lower settings hasher (events ++ s.journal) k' answer := by
  rw [set_calls]
  by_cases hk : k' = k
  · subst hk
    rw [Function.update_self]
    exact hcall
  · rw [Function.update_of_ne hk]
    obtain ⟨hsound, htold⟩ := h.calls k'
    exact ⟨hsound.append, fun answer hanswer => .append hsound (htold answer hanswer)⟩

/-- Events that neither create an account nor write a session keep the invariant with the tables as they are. -/
theorem Inv.quiet (h : s.Inv lower settings hasher) (haccount : ∀ e ∈ events, account e = none)
    (hwrite : ∀ e ∈ events, write e = none) (hcreated : ∀ e ∈ events, ∀ k u p, e ≠ created k u p)
    (hentries : Each (Entry lower settings hasher) (events ++ s.journal))
    (hcall : call.pc.Sound lower settings hasher (events ++ s.journal) k ∧ ∀ answer, call.answer = some answer →
      call.pc.Told lower settings hasher (events ++ s.journal) k answer) :
    (s.set k call events).Inv lower settings hasher where
  users id := by
    rw [set_tables, set_journal, accountOf_of_none haccount]
    exact h.users id
  sessions keys hkeys hinj := by
    rw [set_tables, set_journal, List.filterMap_append, List.filterMap_eq_nil_iff.mpr hwrite, List.nil_append]
    refine h.sessions keys (fun t ht => hkeys t ?_) hinj
    rw [set_journal, tokensOf, List.filterMap_append]
    exact List.mem_append_right _ ht
  registered k' u p hmem := by
    rw [set_journal] at hmem ⊢
    obtain hnew | hold := List.mem_append.mp hmem
    · exact absurd rfl (hcreated _ hnew k' u p)
    · obtain ⟨hrow, hregistered⟩ := h.registered k' u p hold
      exact ⟨hrow, hregistered.append⟩
  emails := by
    rw [set_journal, List.filterMap_append, List.filterMap_eq_nil_iff.mpr haccount, List.nil_append]
    exact h.emails
  entries := hentries
  calls := h.calls_set hcall

/-- A new account keeps the invariant. -/
theorem Inv.create (h : s.Inv lower settings hasher) {t : AccountTables} {id email password passwordHash : String}
    {createdAt : Time} (ht : s.tables.createUser id createdAt email passwordHash = some t)
    (hasked : SignupAsked lower settings s.journal k email password)
    (hhash : ∃ salt, passwordHash = hasher.hash salt password) :
    Inv lower settings hasher
      { s.set k ⟨.creating email password passwordHash, some (.created ⟨id, email, createdAt⟩)⟩
          [created k ⟨id, email, createdAt, passwordHash⟩ password] with tables := t } := by
  obtain ⟨hid, hemail, husers, hsessions⟩ := AccountTables.createUser_eq_some ht
  set u : StoredUser := ⟨id, email, createdAt, passwordHash⟩ with hu
  have hregistered : Registered lower settings hasher ([created k u password] ++ s.journal) k u password :=
    ⟨List.mem_append_left _ (List.mem_singleton_self _), hasked.append, hhash⟩
  -- The rows of the earlier accounts are other rows.
  have hother : ∀ k' u' p, created k' u' p ∈ s.journal → u'.id ≠ id ∧ u'.email ≠ email := by
    intro k' u' p hmem
    have hrow := (h.registered k' u' p hmem).1
    refine ⟨fun heq => ?_, AccountTables.row_eq_none hemail hrow⟩
    rw [heq, hid] at hrow
    cases hrow
  constructor
  · intro id'
    have hfresh : accountOf s.journal u.id = none := by rw [← h.users, hid]
    change t.users.get? id' = accountOf (created k u password :: s.journal) id'
    rw [husers, Dict.get?_insert, accountOf_created k u password hfresh, h.users]
  · intro keys hkeys hinj
    change Represents hashToken t.sessions keys _
    rw [hsessions]
    exact h.sessions keys hkeys hinj
  · intro k' u' p hmem
    change t.users.get? u'.id = some u' ∧ _
    obtain heq | hold := List.mem_cons.mp hmem
    · cases heq
      refine ⟨?_, hregistered⟩
      rw [husers, Dict.get?_insert_self]
    · obtain ⟨hrow, hold'⟩ := h.registered k' u' p hold
      refine ⟨?_, hold'.append⟩
      rw [husers, Dict.get?_insert_ne _ _ (hother k' u' p hold).1.symm]
      exact hrow
  · change ((u :: s.journal.filterMap account).map StoredUser.email).Nodup
    rw [List.map_cons, List.nodup_cons]
    refine ⟨fun hmem => ?_, h.emails⟩
    obtain ⟨u', hu', hemail'⟩ := List.mem_map.mp hmem
    obtain ⟨e, he, haccount⟩ := List.mem_filterMap.mp hu'
    cases e <;> simp only [account, reduceCtorEq, Option.some.injEq] at haccount
    rename_i k' u'' p
    subst haccount
    exact (hother k' u'' p he).2 hemail'
  · exact ⟨trivial, h.entries⟩
  · refine h.calls_set ⟨⟨hasked.append, hhash⟩, fun answer hanswer => ?_⟩
    cases hanswer
    exact ⟨u, rfl, hregistered⟩

/-- A new session keeps the invariant. -/
theorem Inv.openSession (h : s.Inv lower settings hasher) {t : AccountTables} {user : User} {token : String}
    {session : Session} (ht : s.tables.createSession session = some t)
    (hsound : (AuthPc.opening user token session).Sound lower settings hasher s.journal k) :
    Inv lower settings hasher
      { s.set k ⟨.opening user token session, some .unit⟩ [opened k token session] with tables := t } := by
  obtain ⟨-, -, hsessions, husers⟩ := AccountTables.createSession_eq_some ht
  have hsound' := hsound
  obtain ⟨huser, hhash, stored, rfl, hearned⟩ := hsound'
  constructor
  · intro id
    change t.users.get? id = accountOf ([opened k token session] ++ s.journal) id
    rw [husers, accountOf_of_none (by simp [account])]
    exact h.users id
  · intro keys hkeys hinj
    change Represents hashToken t.sessions keys ((token, some session) :: s.journal.filterMap write)
    rw [hsessions, hhash]
    refine Represents.insert (h.sessions keys (fun t' ht' => hkeys t' ?_) hinj) hinj (hkeys token ?_) session
    · exact List.mem_cons_of_mem _ ht'
    · exact List.mem_cons_self
  · intro k' u p hmem
    obtain heq | hold := List.mem_cons.mp hmem
    · cases heq
    · obtain ⟨hrow, hregistered⟩ := h.registered k' u p hold
      refine ⟨?_, hregistered.append⟩
      change t.users.get? u.id = some u
      rw [husers]
      exact hrow
  · exact h.emails
  · exact ⟨⟨hhash, stored, huser.symm, hearned⟩, h.entries⟩
  · refine h.calls_set ⟨hsound.append, fun answer hanswer => ?_⟩
    cases hanswer
    exact List.mem_cons_self

/-- A revocation keeps the invariant. -/
theorem Inv.revoke (h : s.Inv lower settings hasher) (token : String) :
    Inv lower settings hasher
      { s.set k ⟨.revoking token, some .unit⟩ [revoked k token] with
        tables := s.tables.revoke (hashToken token) } := by
  constructor
  · intro id
    change s.tables.users.get? id = accountOf ([revoked k token] ++ s.journal) id
    rw [accountOf_of_none (by simp [account])]
    exact h.users id
  · intro keys hkeys hinj
    change Represents hashToken (s.tables.sessions.erase (hashToken token)) keys
      ((token, none) :: s.journal.filterMap write)
    refine Represents.erase (h.sessions keys (fun t' ht' => hkeys t' ?_) hinj) hinj (hkeys token ?_)
    · exact List.mem_cons_of_mem _ ht'
    · exact List.mem_cons_self
  · intro k' u p hmem
    obtain heq | hold := List.mem_cons.mp hmem
    · cases heq
    · obtain ⟨hrow, hregistered⟩ := h.registered k' u p hold
      exact ⟨hrow, hregistered.append⟩
  · exact h.emails
  · exact ⟨trivial, h.entries⟩
  · refine h.calls_set ⟨trivial, fun answer hanswer => ?_⟩
    cases hanswer
    trivial

/-! ### Every step keeps it -/

/-- The start of a call keeps the invariant. -/
theorem Inv.start (h : s.Inv lower settings hasher) (request : AuthRequest) :
    (s.set k ⟨AuthService.begin lower settings request, none⟩ [started k request]).Inv lower settings hasher := by
  refine h.quiet (by simp [account]) (by simp [write]) (by simp) ⟨trivial, h.entries⟩ ⟨begin_sound _ _, ?_⟩
  intro answer hanswer
  cases hanswer

/-- An await without events whose answer is told keeps the invariant. -/
theorem Inv.answer (h : s.Inv lower settings hasher) {pc : AuthPc} {answer : AuthAnswer}
    (hsound : pc.Sound lower settings hasher s.journal k)
    (htold : pc.Told lower settings hasher s.journal k answer) :
    (s.set k ⟨pc, some answer⟩ []).Inv lower settings hasher := by
  refine h.quiet (by simp) (by simp) (by simp) h.entries ⟨hsound, ?_⟩
  intro answer' hanswer
  cases hanswer
  exact htold

/-- The selection of a session keeps the invariant: the tables have what the journal says. -/
theorem Inv.look (h : s.Inv lower settings hasher) {token : String}
    (hasked : started k (.authenticate (some token)) ∈ s.journal) :
    (s.set k ⟨.looking token, some (.session (s.tables.getByTokenHash (hashToken token)))⟩
      [looked k token]).Inv lower settings hasher := by
  refine h.quiet (by simp [account]) (by simp [write]) (by simp) ⟨trivial, h.entries⟩
    ⟨List.mem_cons_of_mem _ hasked, ?_⟩
  intro answer hanswer
  cases hanswer
  refine ⟨[], s.journal, rfl, fun session hsession => ?_, fun hfree => ?_⟩
  · rw [← h.users]
    exact s.tables.references _ _ hsession
  · refine h.sessions {t | t ∈ tokensOf (looked k token :: s.journal)} (fun t ht => ?_) hfree token ?_
    · exact List.mem_cons_of_mem _ ht
    · exact List.mem_cons_self

/-- The execution of an await keeps the invariant. -/
theorem Inv.execute (h : s.Inv lower settings hasher) {salt id : String} {createdAt : Time}
    {pc : AuthPc} (hsound : pc.Sound lower settings hasher s.journal k) (hawaits : pc.awaits = true) :
    Inv lower settings hasher
      { s.set k ⟨pc, some (AuthService.execute hasher salt id createdAt s.tables pc).1⟩
          (executed k pc (AuthService.execute hasher salt id createdAt s.tables pc).1) with
        tables := (AuthService.execute hasher salt id createdAt s.tables pc).2 } := by
  cases pc with
  | idle => cases hawaits
  | done outcome => cases hawaits
  | hashing email password => exact h.answer hsound ⟨salt, rfl⟩
  | creating email password passwordHash =>
    simp only [AuthService.execute]
    cases ht : s.tables.createUser id createdAt email passwordHash with
    | none => exact h.answer hsound trivial
    | some t => exact h.create ht hsound.1 hsound.2
  | fetching email password =>
    simp only [AuthService.execute]
    refine h.answer hsound ?_
    cases hrow : s.tables.getByEmail email with
    | none => trivial
    | some u =>
      obtain ⟨hemail, hget⟩ := AccountTables.row_eq_some hrow
      rw [h.users] at hget
      obtain ⟨creator, given, hcreated⟩ := created_of_accountOf hget
      exact ⟨hemail, creator, given, (h.registered creator u given hcreated).2⟩
  | verifying stored password =>
    simp only [AuthService.execute]
    refine h.answer hsound ?_
    cases hverified : hasher.verify stored.passwordHash password with
    | false => trivial
    | true => exact hverified
  | equalizing password => exact h.answer hsound trivial
  | opening user token session =>
    simp only [AuthService.execute]
    cases ht : s.tables.createSession session with
    | none => exact h.answer hsound trivial
    | some t => exact h.openSession ht hsound
  | revoking token => exact h.revoke token
  | looking token => exact h.look hsound
  | resolving token checkedAt session =>
    refine h.answer hsound ?_
    show s.tables.getById session.userId = _
    rw [AccountTables.getById, h.users]

omit [DecidableEq κ] in
/-- The answers of calls that go on are what the journal says. -/
theorem resumed_entries {journal : List (AuthEvent κ)} {pc : AuthPc} {answer : AuthAnswer} (token : String) (now : Time)
    (hsound : pc.Sound lower settings hasher journal k) (htold : pc.Told lower settings hasher journal k answer)
    (hentries : Each (Entry lower settings hasher) journal) :
    Each (Entry lower settings hasher)
      (resumed k now pc (AuthService.resume settings token now pc answer) ++ journal) := by
  unfold AuthService.resume
  split
  all_goals try exact hentries
  · -- No session was found.
    exact ⟨⟨hsound, Looked.resolution_of_none htold now⟩, hentries⟩
  · split
    · -- The session is over.
      rename_i hexpired
      refine ⟨?_, hentries⟩
      obtain ⟨newer, before, hsplit, hresolution⟩ := Looked.resolution_of_some htold now
      rw [if_pos hexpired] at hresolution
      exact ⟨hsound, newer, before, hsplit, hresolution⟩
    · exact hentries
  · rename_i tok checkedAt session user
    refine ⟨?_, hentries⟩
    obtain ⟨newer, before, hsplit, hresolution⟩ := Looked.resolution_of_some hsound.2.1 checkedAt
    rw [if_neg (not_le.mpr hsound.2.2)] at hresolution
    refine ⟨hsound.1, newer, before, hsplit, fun hfree => ?_⟩
    rw [show user = _ from htold]
    exact hresolution hfree
  · cases pc <;> exact hentries

omit [DecidableEq κ] in
/-- A call that goes on creates no account and writes no session. -/
theorem resumed_quiet {now : Time} {pc pc' : AuthPc} {e : AuthEvent κ} (h : e ∈ resumed k now pc pc') :
    account e = none ∧ write e = none ∧ ∀ k u p, e ≠ created k u p := by
  unfold resumed at h
  split at h
  · obtain rfl := List.mem_singleton.mp h
    exact ⟨rfl, rfl, by simp⟩
  · obtain rfl := List.mem_singleton.mp h
    exact ⟨rfl, rfl, by simp⟩
  · cases h

/-- The answer of an await keeps the invariant. -/
theorem Inv.resume (h : s.Inv lower settings hasher) {answer : AuthAnswer}
    (hanswer : (s.calls k).answer = some answer) (token : String) :
    (s.set k ⟨AuthService.resume settings token s.now (s.calls k).pc answer, none⟩
      (resumed k s.now (s.calls k).pc (AuthService.resume settings token s.now (s.calls k).pc answer))).Inv
        lower settings hasher := by
  obtain ⟨hsound, htold⟩ := h.calls k
  have htold := htold answer hanswer
  refine h.quiet (fun e he => (resumed_quiet he).1) (fun e he => (resumed_quiet he).2.1)
    (fun e he => (resumed_quiet he).2.2) (resumed_entries token s.now hsound htold h.entries) ⟨?_, ?_⟩
  · exact resume_sound token s.now hsound htold
  · intro answer hanswer
    cases hanswer

/-- A call that raises keeps the invariant. -/
theorem Inv.fail (h : s.Inv lower settings hasher) :
    (s.set k ⟨.done (.raised .unavailable), none⟩ []).Inv lower settings hasher := by
  refine h.quiet (by simp) (by simp) (by simp) h.entries ⟨trivial, ?_⟩
  intro answer hanswer
  cases hanswer

/-- The invariant holds in every reachable state. -/
theorem inv (h : (machine lower settings hasher).Reach s) : s.Inv lower settings hasher := by
  refine Machine.Reach.invariant (P := fun s => s.Inv lower settings hasher) ?_ ?_ h
  · rintro s ⟨htables, hjournal, hcalls⟩
    constructor
    · intro id
      rw [htables, hjournal]
      rfl
    · intro keys _ _
      rw [htables, hjournal]
      exact .empty
    · intro k u p hmem
      rw [hjournal] at hmem
      cases hmem
    · rw [hjournal]
      exact List.nodup_nil
    · rw [hjournal]
      trivial
    · intro k
      rw [hcalls]
      exact ⟨trivial, fun answer hanswer => by cases hanswer⟩
  · intro s i _ hinv ha
    cases i with
    | start k request => exact hinv.start request
    | execute k salt id createdAt => exact hinv.execute (hinv.calls k).1 ha.1
    | resume k token =>
      obtain ⟨answer, hanswer⟩ := Option.isSome_iff_exists.mp ha
      simp only [machine, exec, hanswer]
      exact hinv.resume hanswer token
    | fail k => exact hinv.fail
    | clock now => exact ⟨hinv.users, hinv.sessions, hinv.registered, hinv.emails, hinv.entries, hinv.calls⟩

omit [DecidableEq κ] in
/-- A call that signed in acts as its account. -/
theorem Inv.signedIn (h : s.Inv lower settings hasher) {user : User} {token : String}
    (hpc : (s.calls k).pc = .done (.signedIn user token)) : ActsAs lower settings hasher s.journal k user := by
  have hsound := (h.calls k).1
  rw [hpc] at hsound
  obtain ⟨-, -, -, u, hu, hearned⟩ := hsound
  exact ⟨u, hu, .inl hearned⟩

omit [DecidableEq κ] in
/-- The session of a token was opened. -/
theorem opened_of_sessionOf {journal : List (AuthEvent κ)} {token : String} {session : Session}
    (h : sessionOf journal token = some session) : ∃ opener, opened opener token session ∈ journal := by
  obtain ⟨e, he, hwrite⟩ := List.mem_filterMap.mp (mem_of_latest h)
  cases e <;> simp only [write, reduceCtorEq, Option.some.injEq, Prod.mk.injEq, and_false] at hwrite
  rename_i opener token' session'
  obtain ⟨rfl, rfl⟩ := hwrite
  exact ⟨opener, he⟩

omit [DecidableEq κ] in
/-- A call whose token resolved to an account acts as it. -/
theorem Inv.resolved (h : s.Inv lower settings hasher) (hfree : CollisionFree s.journal) {user : User}
    (hpc : (s.calls k).pc = .done (.resolved (some user))) : ActsAs lower settings hasher s.journal k user := by
  have hsound := (h.calls k).1
  rw [hpc] at hsound
  obtain ⟨token, now, hanswered⟩ := hsound
  obtain ⟨newer, older, hsplit⟩ := List.append_of_mem hanswered
  have hentries := h.entries
  rw [hsplit] at hentries
  obtain ⟨hstarted, between, before, rfl, hresolution⟩ := hentries.at
  -- What was found is the session of an account of the earlier journal.
  have hfront : s.journal =
      (newer ++ [answered k token now (some user)] ++ between ++ [looked k token]) ++ before := by
    rw [hsplit]
    simp
  have hlooked : CollisionFree (looked k token :: before) := by
    have hcut : s.journal = (newer ++ [answered k token now (some user)] ++ between) ++ (looked k token :: before) := by
      rw [hfront]
      simp
    rw [hcut] at hfree
    exact hfree.of_append
  obtain ⟨session, hsession, hlive⟩ := Option.bind_eq_some_iff.mp (hresolution hlooked).symm
  split_ifs at hlive with hexpired
  obtain ⟨u, hu, rfl⟩ := Option.map_eq_some_iff.mp hlive
  obtain ⟨opener, hopened⟩ := opened_of_sessionOf hsession
  obtain ⟨newer', older', hsplit'⟩ := List.append_of_mem hopened
  obtain ⟨recent, hcut⟩ : ∃ recent, s.journal = recent ++ opened opener token session :: older' := by
    rw [hfront, hsplit', ← List.append_assoc]
    exact ⟨_, rfl⟩
  have hentries' := h.entries
  rw [hcut] at hentries'
  obtain ⟨hhash, u', hid, hearned⟩ := hentries'.at
  have hearned' : Earned lower settings hasher s.journal opener u' := by
    rw [hcut, List.append_cons]
    exact hearned.append
  -- The account that earned the session is the one that was found.
  have hu' : u' = u := by
    obtain ⟨creator, password, hregistered, -⟩ := hearned'
    have hrow := (h.registered creator u' password hregistered.1).1
    have haccount : accountOf s.journal session.userId = some u := by
      rw [hfront]
      exact accountOf_append _ hu
    rw [h.users, hid, haccount] at hrow
    exact (Option.some.inj hrow).symm
  subst hu'
  refine ⟨u', rfl, .inr ⟨token, opener, session, ?_, ?_, hid.symm, hhash, hearned'⟩⟩
  · rw [hsplit]
    exact List.mem_append_right _ (List.mem_cons_of_mem _ hstarted)
  · rw [hcut]
    exact List.mem_append_right _ List.mem_cons_self

/-- What a token resolves to: whatever calls interleave and fail, an answer is the account of the session that was
opened last for the token before the answer's own selection, unless that was revoked before it or is over by the
clock at the check, as long as no digests of tokens collide. -/
theorem authenticate_exact (h : (machine lower settings hasher).Reach s) {newer older : List (AuthEvent κ)} {k : κ}
    {token : String} {now : Time} {user : Option User}
    (hsplit : s.journal = newer ++ answered k token now user :: older) (hfree : CollisionFree s.journal) :
    ∃ between before, older = between ++ looked k token :: before ∧ user = resolution before token now := by
  have hentries := (inv h).entries
  rw [hsplit] at hentries hfree
  obtain ⟨-, between, before, rfl, hresolution⟩ := hentries.at
  refine ⟨between, before, rfl, hresolution ?_⟩
  have hrest : newer ++ answered k token now user :: (between ++ looked k token :: before) =
      (newer ++ [answered k token now user] ++ between) ++ (looked k token :: before) := by
    simp
  rw [hrest] at hfree
  exact hfree.of_append

/-- A hasher that keeps the password in front of the salt. -/
def sampleHasher : PasswordHasher where
  hash salt password := password ++ "$" ++ salt
  verify passwordHash password := (password ++ "$").toList.isPrefixOf passwordHash.toList

/-- The settings of the sample: sessions of an hour. -/
def sampleAccountSettings : AccountSettings := ⟨3600, 8, 128⟩

/-- The service before any call. -/
def sampleAuth : AuthSys ℕ := ⟨.empty, 0, fun _ => ⟨.idle, none⟩, []⟩

/-- A signup, and the resolution of its token a minute later. -/
def sampleAuthRun : List (AuthStep ℕ) :=
  [.start 0 (.signup " ada@dibs.ca " "correct horse"), .execute 0 "salt" "" 0, .resume 0 "", .execute 0 "" "ada" 0,
    .resume 0 "token", .execute 0 "" "" 0, .resume 0 "", .clock 60000000,
    .start 1 (.authenticate (some "token")), .execute 1 "" "" 0, .resume 1 "", .execute 1 "" "" 0, .resume 1 ""]

/-- The service after it. -/
def sampleSignedIn : AuthSys ℕ := (machine id sampleAccountSettings sampleHasher).final sampleAuth sampleAuthRun

theorem sampleSignedIn_reach : (machine id sampleAccountSettings sampleHasher).Reach sampleSignedIn := by
  have hinit : (machine id sampleAccountSettings sampleHasher).init sampleAuth := ⟨rfl, rfl, fun _ => rfl⟩
  have hruns : (machine id sampleAccountSettings sampleHasher).Runs sampleAuth sampleAuthRun := by
    decide +kernel
  exact (Machine.Reach.init hinit).final hruns

theorem authenticate_exact_signedIn : ∃ between before,
    sampleSignedIn.journal.tail = between ++ looked 1 "token" :: before ∧
      some ⟨"ada", "ada@dibs.ca", 0⟩ = resolution before "token" 60000000 := by
  have hsplit : sampleSignedIn.journal =
      [] ++ answered 1 "token" 60000000 (some ⟨"ada", "ada@dibs.ca", 0⟩) :: sampleSignedIn.journal.tail := by
    decide +kernel
  have htokens : tokensOf sampleSignedIn.journal = ["token", "token"] := by decide +kernel
  refine authenticate_exact sampleSignedIn_reach hsplit ?_
  intro t ht t' ht' _
  rw [htokens] at ht ht'
  simp only [Set.mem_ofPred_eq, List.mem_cons, List.not_mem_nil, or_false, or_self] at ht ht'
  rw [ht, ht']

/-- How an account's sessions come about: every session is opened for the digest of its token, by the signup that
created the account or by a login with the account's email and a password that the stored hash verifies; that hash
is one of the signup's password, which met the policy, and no email ever has two accounts. -/
theorem sessions_earned (h : (machine lower settings hasher).Reach s) :
    (∀ newer older k token session, s.journal = newer ++ opened k token session :: older →
      session.tokenHash = hashToken token ∧
        ∃ u, u.id = session.userId ∧ Earned lower settings hasher older k u) ∧
      ((s.journal.filterMap account).map StoredUser.email).Nodup ∧
      ∀ id u, s.tables.users.get? id = some u → u.id = id ∧
        ∃ k p, Registered lower settings hasher s.journal k u p := by
  have hinv := inv h
  refine ⟨?_, hinv.emails, ?_⟩
  · intro newer older k token session hsplit
    have hentries := hinv.entries
    rw [hsplit] at hentries
    exact hentries.at
  · intro id u hu
    refine ⟨s.tables.userKey id u hu, ?_⟩
    rw [hinv.users] at hu
    obtain ⟨k, p, hcreated⟩ := created_of_accountOf hu
    exact ⟨k, p, (hinv.registered k u p hcreated).2⟩

theorem sessions_earned_signedIn :
    (∀ newer older k token session, sampleSignedIn.journal = newer ++ opened k token session :: older →
      session.tokenHash = hashToken token ∧
        ∃ u, u.id = session.userId ∧ Earned id sampleAccountSettings sampleHasher older k u) ∧
      ((sampleSignedIn.journal.filterMap account).map StoredUser.email).Nodup ∧
      ∀ i u, sampleSignedIn.tables.users.get? i = some u → u.id = i ∧
        ∃ k p, Registered id sampleAccountSettings sampleHasher sampleSignedIn.journal k u p :=
  sessions_earned sampleSignedIn_reach

/-! ### Calls that run to their end -/

variable (lower settings hasher) in
/-- A later state in which one call has moved and the others, and the clock, are as they were. -/
structure Moved (s s' : AuthSys κ) (k : κ) (pc : AuthPc) (tables : AccountTables) : Prop where
  later : (machine lower settings hasher).Later s s'
  pc : s'.calls k = ⟨pc, none⟩
  tables : s'.tables = tables
  now : s'.now = s.now
  others : ∀ k', k' ≠ k → s'.calls k' = s.calls k'

variable (lower settings hasher) in
/-- A call that is not made yet can start. -/
theorem start_moved (hidle : (s.calls k).pc = .idle) (request : AuthRequest) :
    ∃ s', Moved lower settings hasher s s' k
      (AuthService.begin lower settings request) s.tables := by
  refine ⟨exec lower settings hasher (.start k request) s, .single ⟨.start k request, hidle, rfl⟩, ?_, rfl, rfl, ?_⟩
  · exact Function.update_self _ _ _
  · exact fun k' hk => Function.update_of_ne hk _ _

/-- A call whose await is executed and answered while it runs alone. -/
theorem Moved.turn {s' : AuthSys κ} {pc : AuthPc} {tables : AccountTables}
    (h : Moved lower settings hasher s s' k pc tables)
    (hawaits : pc.awaits = true) (token : String) :
    ∃ s'', Moved lower settings hasher s s'' k
      (AuthService.resume settings token s.now pc (AuthService.execute hasher "" "" 0 tables pc).1)
      (AuthService.execute hasher "" "" 0 tables pc).2 := by
  have hexecute : (machine lower settings hasher).allowed s' (.execute k "" "" 0) := by
    constructor
    · rw [h.pc]
      exact hawaits
    · rw [h.pc]
  generalize hs₁ : exec lower settings hasher (.execute k "" "" 0) s' = s₁
  have hcall : s₁.calls k = ⟨pc, some (AuthService.execute hasher "" "" 0 tables pc).1⟩ := by
    rw [← hs₁, ← h.tables]
    simp [exec, h.pc]
  have hresume : (machine lower settings hasher).allowed s₁ (.resume k token) := by
    show (s₁.calls k).answer.isSome = true
    rw [hcall]
    rfl
  refine ⟨exec lower settings hasher (.resume k token) s₁,
    (h.later.tail ⟨_, hexecute, hs₁.symm⟩).tail ⟨_, hresume, rfl⟩, ?_, ?_, ?_, ?_⟩
  · have hnow : s₁.now = s.now := by
      rw [← hs₁]
      exact h.now
    simp [exec, hcall, hnow]
  · have htables : s₁.tables = (AuthService.execute hasher "" "" 0 tables pc).2 := by
      rw [← hs₁, ← h.tables]
      simp [exec, h.pc]
    simp [exec, hcall, htables]
  · have hnow : s₁.now = s.now := by
      rw [← hs₁]
      exact h.now
    simp only [exec, hcall]
    exact hnow
  · intro k' hk
    have hother : s₁.calls k' = s'.calls k' := by
      rw [← hs₁]
      exact Function.update_of_ne hk _ _
    simp only [exec, hcall, set_calls]
    rw [Function.update_of_ne hk, hother, h.others k' hk]

/-- The right password always gets in, and the token that it gets is the account: from every state that calls and
failures can lead to, a login with a text that normalizes to the email of an account and with the password of its
signup can return that account and a session, and then its token resolves to the account. -/
theorem login_round_trip (h : (machine lower settings hasher).Reach s) {creator login resolver : κ} {u : StoredUser}
    {password given token : String} (hregistered : created creator u password ∈ s.journal)
    (hverify : ∀ salt, hasher.verify (hasher.hash salt password) password = true)
    (hemail : normalizeEmail lower given = some u.email) (hlogin : (s.calls login).pc = .idle)
    (hresolver : (s.calls resolver).pc = .idle) (hne : resolver ≠ login) (htoken : token ≠ "")
    (hfresh : s.tables.sessions.get? (hashToken token) = none) (httl : 0 < settings.sessionTtlSeconds) :
    ∃ s', (machine lower settings hasher).Later s s' ∧
      (s'.calls login).pc = .done (.signedIn u.toPublic token) ∧
      (s'.calls resolver).pc = .done (.resolved (some u.toPublic)) := by
  obtain ⟨hrow, -, -, salt, hsalt⟩ := (inv h).registered creator u password hregistered
  have hget : s.tables.getByEmail u.email = some u := AccountTables.row_of_get? hrow
  have hverified : hasher.verify u.passwordHash password = true := by
    rw [hsalt]
    exact hverify salt
  set session : Session := ⟨hashToken token, u.id, s.now, s.now + settings.sessionTtlSeconds * 1000000⟩ with hsession
  obtain ⟨tables, hcreate⟩ : ∃ tables, s.tables.createSession session = some tables := by
    have hkeys : s.tables.sessions.get? session.tokenHash = none ∧
        (s.tables.users.get? session.userId).isSome = true := ⟨hfresh, by rw [hsession, hrow]; rfl⟩
    exact ⟨_, dif_pos hkeys⟩
  obtain ⟨-, -, hsessions, husers⟩ := AccountTables.createSession_eq_some hcreate
  -- The login: the row, the password, the session.
  obtain ⟨s₁, h₁⟩ := start_moved lower settings hasher hlogin (.login given password)
  have hbegin : AuthService.begin lower settings (.login given password) = .fetching u.email password := by
    simp only [AuthService.begin, hemail]
  rw [hbegin] at h₁
  obtain ⟨s₂, h₂⟩ := h₁.turn rfl token
  simp only [AuthService.execute, hget, AuthService.resume] at h₂
  obtain ⟨s₃, h₃⟩ := h₂.turn rfl token
  simp only [AuthService.execute, hverified, AuthService.resume, AuthService.issueSession] at h₃
  obtain ⟨s₄, h₄⟩ := h₃.turn rfl token
  have hopened : AuthService.execute hasher "" "" 0 s.tables (.opening u.toPublic token session) = (.unit, tables) := by
    simp only [AuthService.execute, hcreate]
  rw [show (⟨hashToken token, u.toPublic.id, s.now, s.now + settings.sessionTtlSeconds * 1000000⟩ : Session) = session
    from rfl, hopened] at h₄
  simp only [AuthService.resume] at h₄
  -- The resolution of the token: the session, its expiry, the account.
  have hidle : (s₄.calls resolver).pc = .idle := by rw [h₄.others resolver hne, hresolver]
  obtain ⟨s₅, h₅⟩ := start_moved lower settings hasher hidle (.authenticate (some token))
  have hbegin' : AuthService.begin lower settings (.authenticate (some token)) = .looking token := if_neg htoken
  rw [hbegin', h₄.tables] at h₅
  obtain ⟨s₆, h₆⟩ := h₅.turn rfl token
  have hfound : tables.getByTokenHash (hashToken token) = some session := by
    rw [AccountTables.getByTokenHash, hsessions, Dict.get?_insert_self]
  have hlive : ¬ session.expiresAt ≤ s₄.now := by
    rw [h₄.now, not_le]
    exact lt_add_of_pos_right _ (by positivity)
  simp only [AuthService.execute, hfound, AuthService.resume, if_neg hlive] at h₆
  obtain ⟨s₇, h₇⟩ := h₆.turn rfl token
  have haccount : tables.getById session.userId = some u.toPublic := by
    rw [AccountTables.getById, husers, hrow]
    rfl
  simp only [AuthService.execute, haccount, AuthService.resume] at h₇
  refine ⟨s₇, h₄.later.trans h₇.later, ?_, ?_⟩
  · rw [h₇.others login hne.symm, h₄.pc]
  · rw [h₇.pc]

theorem login_round_trip_signedIn :
    ∃ s', (machine id sampleAccountSettings sampleHasher).Later sampleSignedIn s' ∧
      (s'.calls 2).pc = .done (.signedIn ⟨"ada", "ada@dibs.ca", 0⟩ "other") ∧
      (s'.calls 3).pc = .done (.resolved (some ⟨"ada", "ada@dibs.ca", 0⟩)) := by
  have hcreated : created 0 ⟨"ada", "ada@dibs.ca", 0, "correct horse$salt"⟩ "correct horse" ∈
      sampleSignedIn.journal := by
    decide +kernel
  have hfresh : sampleSignedIn.tables.sessions.get? (hashToken "other") = none := by decide +kernel
  have hlogin : (sampleSignedIn.calls 2).pc = .idle := by decide +kernel
  have hresolver : (sampleSignedIn.calls 3).pc = .idle := by decide +kernel
  have hemail : normalizeEmail id "ada@dibs.ca" = some "ada@dibs.ca" := by decide +kernel
  exact login_round_trip sampleSignedIn_reach hcreated (fun salt => by simp [sampleHasher]) hemail hlogin hresolver
    (by decide) (by decide) hfresh (by decide)

end AuthSys

end System

end Dibs
