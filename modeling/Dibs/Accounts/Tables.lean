import Dibs.Lib.Dict
import Dibs.Models.Reservation

/-!
# Accounts and sessions in Postgres

`AccountRepository` and `SessionRepository` of `db/repositories/accounts.py` over the tables of
`0002_accounts.sql`. The keys and references that the migration declares are fields of `AccountTables`: an
email has one account, and a session belongs to an account. No statement changes or deletes an account.
-/

namespace Dibs

/-- Public account fields. -/
structure User where
  id : String
  email : String
  createdAt : Time
deriving DecidableEq, Repr

/-- The public fields plus the argon2 hash for verification. -/
structure StoredUser where
  id : String
  email : String
  createdAt : Time
  passwordHash : String
deriving DecidableEq, Repr

/-- `StoredUser.to_public`. -/
def StoredUser.toPublic (u : StoredUser) : User := ⟨u.id, u.email, u.createdAt⟩

/-- One opaque bearer session. -/
structure Session where
  tokenHash : String
  userId : String
  createdAt : Time
  expiresAt : Time
deriving DecidableEq, Repr

/-- The tables `users`, by id, and `sessions`, by token hash. -/
structure AccountTables where
  users : Dict String StoredUser
  sessions : Dict String Session
  /-- The rows of `users` are under their ids. -/
  userKey : ∀ id u, users.get? id = some u → u.id = id
  /-- `email TEXT NOT NULL UNIQUE`. -/
  emailKey : ∀ i j u v, users.get? i = some u → users.get? j = some v → u.email = v.email → i = j
  /-- The rows of `sessions` are under their token hashes. -/
  sessionKey : ∀ h s, sessions.get? h = some s → s.tokenHash = h
  /-- `user_id UUID NOT NULL REFERENCES users(id)`. -/
  references : ∀ h s, sessions.get? h = some s → (users.get? s.userId).isSome = true

namespace AccountTables

/-- No accounts. -/
def empty : AccountTables where
  users := .empty
  sessions := .empty
  userKey := by simp
  emailKey := by simp
  sessionKey := by simp
  references := by simp

/-- The row of an email. -/
def row (t : AccountTables) (email : String) : Option StoredUser :=
  (t.users.entries.find? fun e => decide (e.2.email = email)).map Prod.snd

/-- The row of an email has it, and is under its id. -/
theorem row_eq_some {t : AccountTables} {email : String} {u : StoredUser} (h : t.row email = some u) :
    u.email = email ∧ t.users.get? u.id = some u := by
  obtain ⟨⟨id, _⟩, hfind, rfl⟩ := Option.map_eq_some_iff.mp h
  have hrow := (t.users.get?_eq_some_iff).mpr (List.mem_of_find?_eq_some hfind)
  have hemail := List.find?_some hfind
  refine ⟨of_decide_eq_true hemail, ?_⟩
  have hid := t.userKey _ _ hrow
  dsimp only
  rw [hid]
  exact hrow

/-- An email without a row has no account. -/
theorem row_eq_none {t : AccountTables} {email : String} (h : t.row email = none) {id : String}
    {u : StoredUser} (hu : t.users.get? id = some u) : u.email ≠ email := by
  have hnone := List.find?_eq_none.mp (Option.map_eq_none_iff.mp h) _ (t.users.get?_eq_some_iff.mp hu)
  simpa using hnone

/-- An account with an email is its row. -/
theorem row_of_get? {t : AccountTables} {id : String} {u : StoredUser} (h : t.users.get? id = some u) :
    t.row u.email = some u := by
  cases hrow : t.row u.email with
  | none => exact absurd rfl (row_eq_none hrow h)
  | some v =>
    obtain ⟨hemail, hv⟩ := row_eq_some hrow
    have hid := t.emailKey _ _ _ _ h hv hemail.symm
    rw [← hid, h] at hv
    exact hv.symm

/-- `AccountRepository.create_user`, with the id and the instant that Postgres gives the row; none where a
unique key is violated, which is a `DuplicateEmailError`. -/
def createUser (t : AccountTables) (id : String) (now : Time) (email passwordHash : String) :
    Option AccountTables :=
  if h : t.users.get? id = none ∧ t.row email = none then
    some
      { t with
        users := t.users.insert id ⟨id, email, now, passwordHash⟩
        userKey := by
          intro i u hu
          rw [Dict.get?_insert] at hu
          split_ifs at hu with hi
          · cases hu
            exact hi
          · exact t.userKey i u hu
        emailKey := by
          intro i j u v hu hv huv
          rw [Dict.get?_insert] at hu hv
          split_ifs at hu hv with hi hj hj
          · exact hi.symm.trans hj
          · cases hu
            exact absurd huv.symm (row_eq_none h.2 hv)
          · cases hv
            exact absurd huv (row_eq_none h.2 hu)
          · exact t.emailKey i j u v hu hv huv
        references := by
          intro hash s hs
          rw [Dict.get?_insert]
          split_ifs
          · rfl
          · exact t.references hash s hs }
  else none

/-- `AccountRepository.get_by_email`. -/
def getByEmail (t : AccountTables) (email : String) : Option StoredUser := t.row email

/-- `AccountRepository.get_by_id`. -/
def getById (t : AccountTables) (id : String) : Option User := (t.users.get? id).map StoredUser.toPublic

/-- `SessionRepository.create`; none where the token hash is taken or the account is missing, which is an
error of Postgres. -/
def createSession (t : AccountTables) (s : Session) : Option AccountTables :=
  if h : t.sessions.get? s.tokenHash = none ∧ (t.users.get? s.userId).isSome = true then
    some
      { t with
        sessions := t.sessions.insert s.tokenHash s
        sessionKey := by
          intro hash s' hs
          rw [Dict.get?_insert] at hs
          split_ifs at hs with hi
          · cases hs
            exact hi
          · exact t.sessionKey hash s' hs
        references := by
          intro hash s' hs
          rw [Dict.get?_insert] at hs
          split_ifs at hs
          · cases hs
            exact h.2
          · exact t.references hash s' hs }
  else none

/-- `SessionRepository.get_by_token_hash`. -/
def getByTokenHash (t : AccountTables) (tokenHash : String) : Option Session := t.sessions.get? tokenHash

/-- `SessionRepository.revoke`. -/
def revoke (t : AccountTables) (tokenHash : String) : AccountTables where
  users := t.users
  sessions := t.sessions.erase tokenHash
  userKey := t.userKey
  emailKey := t.emailKey
  sessionKey := by
    intro hash s hs
    rw [Dict.get?_erase] at hs
    split_ifs at hs
    exact t.sessionKey hash s hs
  references := by
    intro hash s hs
    rw [Dict.get?_erase] at hs
    split_ifs at hs
    exact t.references hash s hs

/-- A created account is one more row, under a new id and with a new email. -/
theorem createUser_eq_some {t t' : AccountTables} {id email passwordHash : String} {now : Time}
    (h : t.createUser id now email passwordHash = some t') :
    t.users.get? id = none ∧ t.row email = none ∧
      t'.users = t.users.insert id ⟨id, email, now, passwordHash⟩ ∧ t'.sessions = t.sessions := by
  unfold createUser at h
  split_ifs at h with hkeys
  cases h
  exact ⟨hkeys.1, hkeys.2, rfl, rfl⟩

/-- A created session is one more row, of an account. -/
theorem createSession_eq_some {t t' : AccountTables} {s : Session} (h : t.createSession s = some t') :
    t.sessions.get? s.tokenHash = none ∧ (t.users.get? s.userId).isSome = true ∧
      t'.sessions = t.sessions.insert s.tokenHash s ∧ t'.users = t.users := by
  unfold createSession at h
  split_ifs at h with hkeys
  cases h
  exact ⟨hkeys.1, hkeys.2, rfl, rfl⟩

@[simp] theorem revoke_users (t : AccountTables) (tokenHash : String) :
    (t.revoke tokenHash).users = t.users := rfl

@[simp] theorem revoke_sessions (t : AccountTables) (tokenHash : String) :
    (t.revoke tokenHash).sessions = t.sessions.erase tokenHash := rfl

end AccountTables

end Dibs
