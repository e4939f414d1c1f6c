import Dibs.Accounts.Sessions
import Dibs.History.Accounts

/-!
# Access to watches

The routes of `api/routes/watches.py` and `api/routes/auth.py` over the account service and the projection of watches.
A request first awaits the account service: `current_user` resolves its bearer token, a signup or login
signs in. A read or a cancellation then awaits `_forbid_if_owned_by_another_account`, a listing its select, a
creation the record of its watch, and a signup or login that brings a client id awaits the claim of that client's
watches. Requests interleave at each await, and so do the records of polls, which carry no account. The route
`parse_and_book` resolves its caller and has a watch created for it in the same way; such a prompt is among the
creations here, which may also come to nothing.

The projection and the accounts are in Postgres, so both are there; `enabled` says whether the account settings
were valid.
-/

namespace Dibs

/-! ## Headers -/

/-- `bearer_token`. -/
def bearerToken (lower : String → String) (authorization : Option String) : Option String :=
  match authorization with
  | none => none
  | some header =>
    if "bearer ".toList.isPrefixOf (lower header).toList then
      let token := pyStrip (String.ofList (header.toList.drop 7))
      if token = "" then none else some token
    else none

/-- A character of `[A-Za-z0-9_-]`. -/
def isClientIdChar (c : Char) : Bool :=
  ('A' ≤ c && c ≤ 'Z') || ('a' ≤ c && c ≤ 'z') || ('0' ≤ c && c ≤ '9') || c = '_' || c = '-'

/-- `extract_client_id`. -/
def extractClientId (raw : Option String) : Option String :=
  match raw with
  | none => none
  | some raw =>
    let candidate := pyStrip raw
    if SizedWithin 1 200 candidate ∧ candidate.toList.all isClientIdChar = true then some candidate else none

/-! ## Requests -/

/-- The requests of the routes, with the headers and parameters that matter here. -/
inductive Route
  | signup (email password : String) (clientId : Option String)
  | login (email password : String) (clientId : Option String)
  | listMyWatches (clientId : Option String)
  | readWatch (watchId : String)
  | cancelWatch (watchId : String)
  | createWatch (clientId : Option String)
deriving DecidableEq, Repr

/-- A request with its `Authorization` header. -/
structure RouteRequest where
  route : Route
  authorization : Option String
deriving DecidableEq, Repr

/-- The client id that a signup or login brings. -/
def Route.claims : Route → Option String
  | .signup _ _ clientId | .login _ _ clientId => extractClientId clientId
  | _ => none

/-- What a request asks of the account service first. -/
def RouteRequest.auth (lower : String → String) (r : RouteRequest) : AuthRequest :=
  match r.route with
  | .signup email password _ => .signup email password
  | .login email password _ => .login email password
  | _ => .authenticate (bearerToken lower r.authorization)

/-- The response of a route. -/
inductive RouteResponse
  | signedIn (user : User) (token : String)
  | listed (user : Option User) (watches : List Watch)
  | watch (user : Option User) (watchId : String)
  | created (user : Option User) (watchId : String)
  | refused (error : HttpException)
  /-- Any other exception. -/
  | raised
deriving DecidableEq

/-- Where a request stands. -/
inductive RouteState
  | idle
  /-- It awaits the account service. -/
  | authenticating (request : RouteRequest)
  /-- A signup or login awaits the claim of its client's watches. -/
  | claiming (clientId : String) (user : User) (token : String)
  /-- The caller is known; the projection is awaited. -/
  | known (route : Route) (user : Option User)
  /-- The check let the caller pass; the watch service is awaited. -/
  | passed (watchId : String) (user : Option User)
  | done (response : RouteResponse)
deriving DecidableEq

/-- The status that a route answers an error of the account service with, if a handler maps it. -/
def AuthError.response (error : AuthError) : RouteResponse :=
  match error.message, error with
  | some text, .emailTaken => .refused ⟨409, text⟩
  | some text, .invalidCredentials => .refused ⟨401, text⟩
  | some text, .invalidEmail | some text, .passwordTooShort _ | some text, .passwordTooLong _ => .refused ⟨422, text⟩
  | _, _ => .raised

/-- A request before anything is awaited: accounts that are not enabled resolve nobody and sign nobody in. -/
def RouteRequest.begin (enabled : Bool) (r : RouteRequest) : RouteState :=
  if enabled then .authenticating r
  else
    match r.route with
    | .signup _ _ _ | .login _ _ _ =>
      .done (.refused ⟨503, "Accounts are unavailable because PostgreSQL is not configured."⟩)
    | route => .known route none

/-- A request after the account service. -/
def RouteRequest.authenticated (r : RouteRequest) : AuthOutcome → RouteState
  | .signedIn user token => match r.route with
    | .signup _ _ clientId | .login _ _ clientId => match extractClientId clientId with
      | none => .done (.signedIn user token)
      | some clientId => .claiming clientId user token
    | _ => .done .raised
  | .resolved user => match r.route with
    | .signup _ _ _ | .login _ _ _ => .done .raised
    | route => .known route user
  | .raised error => .done error.response
  | .loggedOut => .done .raised

/-- `list_my_watches` with its caller. -/
def listMyWatches (history : WatchHistory) (user : Option User) (clientId : Option String) : RouteResponse :=
  match user with
  | some u => match history.listForUser u.id 100 with
    | .ok watches => .listed user watches
    | .error _ => .raised
  | none => match extractClientId clientId with
    | none => .listed none []
    | some clientId => match history.listForOwner clientId 100 with
      | .ok watches => .listed none watches
      | .error _ => .raised

/-- The record of a created watch: its creator's client and account. -/
def creationRecord (watch : Watch) (clientId : Option String) (user : Option User) : HistoryCall :=
  ⟨watch, extractClientId clientId, user.map User.id, 0⟩

/-! ## The system -/

/-- What happened to the ownership of watches. -/
inductive OwnershipEvent (κ : Type*)
  | requested (k : κ) (request : RouteRequest)
  /-- The record of a new watch was executed. -/
  | recorded (k : κ) (watchId : String) (user : Option User)
  /-- A claim was executed and assigned these watches. -/
  | claimed (k : κ) (clientId : String) (user : User) (watchIds : List String)
deriving DecidableEq

/-- The account service, the projection and the requests. -/
structure AccessSys (κ : Type*) where
  auth : AuthSys κ
  history : Accounts
  routes : κ → RouteState
  ownership : List (OwnershipEvent κ)

/-- What can happen next. -/
inductive AccessStep (κ : Type*)
  /-- A request comes in. -/
  | request (k : κ) (request : RouteRequest)
  /-- The account service takes a step of one of its calls, or the clock moves. -/
  | auth (step : AuthStep κ)
  /-- The account service has answered a request. -/
  | authenticated (k : κ)
  /-- The claim of a request is executed. -/
  | claim (k : κ)
  /-- The check of a read or cancellation is executed. -/
  | check (k : κ)
  /-- The watch service has read or cancelled the watch, or found none. -/
  | serve (k : κ) (found : Bool)
  /-- The select of a listing is executed. -/
  | list (k : κ)
  /-- The record of a created watch is executed. -/
  | create (k : κ) (watch : Watch)
  /-- A poll or a transition records a watch. -/
  | record (call : HistoryCall)
  /-- A request's await ends in an exception. -/
  | fail (k : κ)

variable {κ : Type*} [DecidableEq κ]

namespace WatchHistory

/-- A watch has an account after a record if it had it before or the record gave it. -/
theorem owner_of_record {t : WatchHistory} {call : HistoryCall} {w u : String}
    (h : (t.record call).getAccountOwner w = some u) :
    t.getAccountOwner w = some u ∨ call.watch.watchId = w ∧ call.userId = some u := by
  rw [getAccountOwner, get?_record] at h
  split_ifs at h with hid
  · rw [Option.bind_some] at h
    unfold getAccountOwner
    cases hrow : t.get? w with
    | none =>
      rw [hrow] at h
      exact .inr ⟨hid, h⟩
    | some row =>
      rw [hrow] at h
      simp only [upsertRow] at h
      split_ifs at h
      · -- The account of the call, or else that of the row.
        cases hcall : call.userId with
        | none =>
          have hexcluded : call.excluded.userId = none := hcall
          rw [show (call.excluded.userId <|> row.userId) = row.userId by rw [hexcluded]; rfl] at h
          exact .inl h
        | some u' =>
          have hexcluded : call.excluded.userId = some u' := hcall
          rw [show (call.excluded.userId <|> row.userId) = some u' by rw [hexcluded]; rfl] at h
          exact .inr ⟨hid, h⟩
      · exact .inl h
  · exact .inl h

/-- A watch has an account after a claim if it had it before or the claim assigned it. -/
theorem owner_of_claim {t : WatchHistory} {c userId w u : String}
    (h : (t.claimAnonymous c userId).getAccountOwner w = some u) :
    t.getAccountOwner w = some u ∨
      userId = u ∧ w ∈ (t.entries.filter fun e => unclaimed c e.2).map Prod.fst := by
  rw [getAccountOwner_claimAnonymous] at h
  cases hrow : t.get? w with
  | none =>
    rw [hrow] at h
    cases h
  | some row =>
    rw [hrow, Option.bind_some] at h
    split_ifs at h with hclaimed
    · refine .inr ⟨Option.some.inj h, List.mem_map.mpr ⟨(w, row), ?_, rfl⟩⟩
      exact List.mem_filter.mpr ⟨t.get?_eq_some_iff.mp hrow, hclaimed⟩
    · left
      rw [getAccountOwner, hrow, Option.bind_some]
      exact h

/-- The documents that `list_for_user` returns are those of the account's own watches, when every row holds the
document of its own watch. -/
theorem listForUser_owned {t : WatchHistory} (hkey : ∀ v row, t.get? v = some row → row.watchJson.watchId = v)
    {userId : String} {limit : ℕ} {watches : List Watch} (h : t.listForUser userId limit = .ok watches) :
    ∀ w ∈ watches, t.getAccountOwner w.watchId = some userId := by
  intro w hw
  unfold listForUser list at h
  split_ifs at h
  obtain rfl := Except.ok.inj h
  obtain ⟨row, hmem, rfl⟩ := List.mem_map.mp hw
  obtain ⟨⟨v, hrow⟩, hp⟩ := mem_select.mp (List.mem_of_mem_take hmem)
  rw [getAccountOwner, hkey v row hrow, hrow, Option.bind_some]
  exact of_decide_eq_true hp

end WatchHistory

namespace AccessSys

open OwnershipEvent

/-- The system with another state of one request. -/
def move (s : AccessSys κ) (k : κ) (r : RouteState) : AccessSys κ :=
  { s with routes := Function.update s.routes k r }

section Machine

variable (enabled : Bool) (lower : String → String) (settings : AccountSettings) (hasher : PasswordHasher)

/-- One step; none where it cannot be taken. -/
def step (s : AccessSys κ) : AccessStep κ → Option (AccessSys κ)
  | .request k request => match s.routes k, (s.auth.calls k).pc with
    | .idle, .idle => some
        { s.move k (request.begin enabled) with
          auth := if enabled then AuthSys.exec lower settings hasher (.start k (request.auth lower)) s.auth else s.auth
          ownership := requested k request :: s.ownership }
    | _, _ => none
  | .auth (.start _ _) => none
  | .auth i => if s.auth.allowed i then some { s with auth := AuthSys.exec lower settings hasher i s.auth } else none
  | .authenticated k => match s.routes k, (s.auth.calls k).pc with
    | .authenticating request, .done outcome => some (s.move k (request.authenticated outcome))
    | _, _ => none
  | .claim k => match s.routes k with
    | .claiming clientId user token => some
        { s.move k (.done (.signedIn user token)) with
          history := accountMachine.exec (.claimAnonymous clientId user.id) s.history
          ownership := claimed k clientId user
              ((s.history.table.entries.filter fun e => WatchHistory.unclaimed clientId e.2).map Prod.fst) ::
            s.ownership }
    | _ => none
  | .check k => match s.routes k with
    | .known (.readWatch watchId) user | .known (.cancelWatch watchId) user =>
      some (s.move k (match forbidIfOwnedByAnotherAccount (some s.history.table) watchId (user.map User.id) with
        | .ok _ => .passed watchId user
        | .error e => .done (.refused e)))
    | _ => none
  | .serve k found => match s.routes k with
    | .passed watchId user => some (s.move k (.done
        (if found then .watch user watchId else .refused ⟨404, "Unknown watch: " ++ watchId⟩)))
    | _ => none
  | .list k => match s.routes k with
    | .known (.listMyWatches clientId) user => some (s.move k (.done (listMyWatches s.history.table user clientId)))
    | _ => none
  | .create k watch => match s.routes k with
    | .known (.createWatch clientId) user =>
      if watch.watchId ∈ s.history.recorded then none
      else some
        { s.move k (.done (.created user watch.watchId)) with
          history := accountMachine.exec (.record (creationRecord watch clientId user)) s.history
          ownership := recorded k watch.watchId user :: s.ownership }
    | _ => none
  | .record call =>
    if call.userId = none then some { s with history := accountMachine.exec (.record call) s.history } else none
  | .fail k => match s.routes k with
    | .claiming _ user token => some (s.move k (.done (.signedIn user token)))
    | .authenticating _ | .known _ _ | .passed _ _ => some (s.move k (.done .raised))
    | _ => none

/-- The routes as a machine, from empty tables. -/
def machine : Machine (AccessSys κ) (AccessStep κ) where
  init s := (AuthSys.machine lower settings hasher).init s.auth ∧ accountMachine.init s.history ∧
    (∀ k, s.routes k = .idle) ∧ s.ownership = []
  allowed s i := (s.step enabled lower settings hasher i).isSome
  exec i s := (s.step enabled lower settings hasher i).getD s

variable {enabled lower settings hasher} {s s' : AccessSys κ}

/-- What a step can do: which request it moves, from where to where, and what it does to the accounts, the projection
and the record of ownership. -/
inductive Moves (enabled : Bool) (lower : String → String) (settings : AccountSettings) (hasher : PasswordHasher)
    (s : AccessSys κ) : AccessSys κ → Prop
  | request (k : κ) (r : RouteRequest) (auth : AuthSys κ) : s.routes k = .idle →
    (auth = s.auth ∧ enabled = false ∨ (s.auth.calls k).pc = .idle ∧ enabled = true ∧
      auth = AuthSys.exec lower settings hasher (.start k (r.auth lower)) s.auth) →
    Moves enabled lower settings hasher s
      ⟨auth, s.history, Function.update s.routes k (r.begin enabled), requested k r :: s.ownership⟩
  | auth (i : AuthStep κ) : s.auth.allowed i → Moves enabled lower settings hasher s
      { s with auth := AuthSys.exec lower settings hasher i s.auth }
  | authenticated (k : κ) (r : RouteRequest) (outcome : AuthOutcome) : s.routes k = .authenticating r →
    (s.auth.calls k).pc = .done outcome → Moves enabled lower settings hasher s (s.move k (r.authenticated outcome))
  | claim (k : κ) (clientId : String) (user : User) (token : String) : s.routes k = .claiming clientId user token →
    Moves enabled lower settings hasher s
      ⟨s.auth, accountMachine.exec (.claimAnonymous clientId user.id) s.history,
        Function.update s.routes k (.done (.signedIn user token)),
        claimed k clientId user
          ((s.history.table.entries.filter fun e => WatchHistory.unclaimed clientId e.2).map Prod.fst) :: s.ownership⟩
  | check (k : κ) (route : Route) (watchId : String) (user : Option User) :
    s.routes k = .known route user → (route = .readWatch watchId ∨ route = .cancelWatch watchId) →
    Moves enabled lower settings hasher s
      (s.move k (match forbidIfOwnedByAnotherAccount (some s.history.table) watchId (user.map User.id) with
        | .ok _ => .passed watchId user
        | .error e => .done (.refused e)))
  | serve (k : κ) (watchId : String) (user : Option User) (found : Bool) : s.routes k = .passed watchId user →
    Moves enabled lower settings hasher s (s.move k (.done
      (if found then .watch user watchId else .refused ⟨404, "Unknown watch: " ++ watchId⟩)))
  | list (k : κ) (clientId : Option String) (user : Option User) :
    s.routes k = .known (.listMyWatches clientId) user →
    Moves enabled lower settings hasher s (s.move k (.done (listMyWatches s.history.table user clientId)))
  | create (k : κ) (watch : Watch) (clientId : Option String) (user : Option User) :
    s.routes k = .known (.createWatch clientId) user → watch.watchId ∉ s.history.recorded →
    Moves enabled lower settings hasher s
      ⟨s.auth, accountMachine.exec (.record (creationRecord watch clientId user)) s.history,
        Function.update s.routes k (.done (.created user watch.watchId)), recorded k watch.watchId user :: s.ownership⟩
  | record (call : HistoryCall) : call.userId = none → Moves enabled lower settings hasher s
      { s with history := accountMachine.exec (.record call) s.history }
  | fail (k : κ) (response : RouteResponse) :
    (response = .raised ∧ (∃ r, s.routes k = .authenticating r) ∨ response = .raised ∧
      (∃ route user, s.routes k = .known route user) ∨ response = .raised ∧ (∃ w user, s.routes k = .passed w user) ∨
      ∃ c user token, s.routes k = .claiming c user token ∧ response = .signedIn user token) →
    Moves enabled lower settings hasher s (s.move k (.done response))

/-- Every step is one of these moves. -/
theorem moves_of_step {i : AccessStep κ} (h : s.step enabled lower settings hasher i = some s') :
    Moves enabled lower settings hasher s s' := by
  cases i with
  | request k r =>
    simp only [step] at h
    split at h
    · rename_i hroute hpc
      cases h
      refine .request k r _ hroute ?_
      cases enabled with
      | false => exact .inl ⟨rfl, rfl⟩
      | true => exact .inr ⟨hpc, rfl, rfl⟩
    · cases h
  | auth i =>
    cases i with
    | start k request => cases h
    | execute k salt id createdAt =>
      simp only [step] at h
      split at h
      · rename_i hallowed
        cases h
        exact .auth _ hallowed
      · cases h
    | resume k token =>
      simp only [step] at h
      split at h
      · rename_i hallowed
        cases h
        exact .auth _ hallowed
      · cases h
    | fail k =>
      simp only [step] at h
      split at h
      · rename_i hallowed
        cases h
        exact .auth _ hallowed
      · cases h
    | clock now =>
      simp only [step] at h
      split at h
      · rename_i hallowed
        cases h
        exact .auth _ hallowed
      · cases h
  | authenticated k =>
    simp only [step] at h
    split at h
    · rename_i r outcome hroute hpc
      cases h
      exact .authenticated k r outcome hroute hpc
    · cases h
  | claim k =>
    simp only [step] at h
    split at h
    · rename_i clientId user token hroute
      cases h
      exact .claim k clientId user token hroute
    · cases h
  | check k =>
    simp only [step] at h
    split at h
    · rename_i watchId user hroute
      cases h
      exact .check k _ watchId user hroute (.inl rfl)
    · rename_i watchId user hroute
      cases h
      exact .check k _ watchId user hroute (.inr rfl)
    · cases h
  | serve k found =>
    simp only [step] at h
    split at h
    · rename_i watchId user hroute
      cases h
      exact .serve k watchId user found hroute
    · cases h
  | list k =>
    simp only [step] at h
    split at h
    · rename_i clientId user hroute
      cases h
      exact .list k clientId user hroute
    · cases h
  | create k watch =>
    simp only [step] at h
    split at h
    · rename_i clientId user hroute
      split at h
      · cases h
      · rename_i hfresh
        cases h
        exact .create k watch clientId user hroute hfresh
    · cases h
  | record call =>
    simp only [step] at h
    split at h
    · rename_i huser
      cases h
      exact .record call huser
    · cases h
  | fail k =>
    simp only [step] at h
    split at h
    · rename_i clientId user token hroute
      cases h
      exact .fail k _ (.inr (.inr (.inr ⟨clientId, user, token, hroute, rfl⟩)))
    · rename_i r hroute
      cases h
      exact .fail k _ (.inl ⟨rfl, r, hroute⟩)
    · rename_i route user hroute
      cases h
      exact .fail k _ (.inr (.inl ⟨rfl, route, user, hroute⟩))
    · rename_i watchId user hroute
      cases h
      exact .fail k _ (.inr (.inr (.inl ⟨rfl, watchId, user, hroute⟩)))
    · cases h

/-! ### What a request knows -/

variable (lower settings hasher) in
/-- The caller of a request, if there is one, acts as the account. -/
def Acts (journal : List (AuthEvent κ)) (k : κ) (user : Option User) : Prop :=
  ∀ u, user = some u → CollisionFree journal → ActsAs lower settings hasher journal k u

omit [DecidableEq κ] in
theorem Acts.append {journal events : List (AuthEvent κ)} {k : κ} {user : Option User}
    (h : Acts lower settings hasher journal k user) : Acts lower settings hasher (events ++ journal) k user :=
  fun u hu hfree => (h u hu hfree.of_append).append

variable (lower settings hasher) in
/-- What a request knows where it stands. -/
def Sound (journal : List (AuthEvent κ)) (ownership : List (OwnershipEvent κ)) (k : κ) : RouteState → Prop
  | .idle => True
  | .authenticating r => requested k r ∈ ownership
  | .claiming clientId user _ => (∃ r, requested k r ∈ ownership ∧ r.route.claims = some clientId) ∧
    Acts lower settings hasher journal k (some user)
  | .known route user => (∃ r, requested k r ∈ ownership ∧ r.route = route) ∧ Acts lower settings hasher journal k user
  | .passed _ user => Acts lower settings hasher journal k user
  | .done (.signedIn user _) => Acts lower settings hasher journal k (some user)
  | .done (.listed user _) => Acts lower settings hasher journal k user
  | .done (.watch user _) => Acts lower settings hasher journal k user
  | .done (.created user _) => Acts lower settings hasher journal k user
  | .done _ => True

variable (lower settings hasher) in
/-- What stands behind an event about ownership. -/
def Backed (journal : List (AuthEvent κ)) (ownership : List (OwnershipEvent κ)) : OwnershipEvent κ → Prop
  | .requested _ _ => True
  | .recorded k _ user => (∃ r clientId, requested k r ∈ ownership ∧ r.route = .createWatch clientId) ∧
    Acts lower settings hasher journal k user
  | .claimed k clientId user _ => (∃ r, requested k r ∈ ownership ∧ r.route.claims = some clientId) ∧
    Acts lower settings hasher journal k (some user)

/-- An account came to own a watch: it created it, or it claimed it for a client. -/
def Credited (ownership : List (OwnershipEvent κ)) (watchId userId : String) : Prop :=
  ∃ k user, user.id = userId ∧ (recorded k watchId (some user) ∈ ownership ∨
    ∃ clientId watchIds, claimed k clientId user watchIds ∈ ownership ∧ watchId ∈ watchIds)

/-- A listing for an account shows its own watches. -/
def ListsOwn (history : WatchHistory) (r : RouteState) : Prop :=
  ∀ user watches, r = .done (.listed (some user) watches) →
    ∀ w ∈ watches, history.getAccountOwner w.watchId = some user.id

variable (lower settings hasher) in
/-- The invariant of the routes. -/
structure Inv (s : AccessSys κ) : Prop where
  auth : (AuthSys.machine lower settings hasher).Reach s.auth
  history : accountMachine.Reach s.history
  routes : ∀ k, Sound lower settings hasher s.auth.journal s.ownership k (s.routes k)
  lists : ∀ k, ListsOwn s.history.table (s.routes k)
  backed : ∀ e ∈ s.ownership, Backed lower settings hasher s.auth.journal s.ownership e
  owned : ∀ w u, s.history.table.getAccountOwner w = some u → Credited s.ownership w u

section Keep

variable {journal events : List (AuthEvent κ)} {ownership news : List (OwnershipEvent κ)}

omit [DecidableEq κ] in
/-- More events change nothing about what a request knows. -/
theorem Sound.append {k : κ} {r : RouteState} (h : Sound lower settings hasher journal ownership k r) :
    Sound lower settings hasher (events ++ journal) (news ++ ownership) k r := by
  cases r with
  | idle => trivial
  | authenticating r => exact List.mem_append_right _ h
  | claiming clientId user token =>
    obtain ⟨⟨r, hr, hclaims⟩, hacts⟩ := h
    exact ⟨⟨r, List.mem_append_right _ hr, hclaims⟩, hacts.append⟩
  | known route user =>
    obtain ⟨⟨r, hr, hroute⟩, hacts⟩ := h
    exact ⟨⟨r, List.mem_append_right _ hr, hroute⟩, hacts.append⟩
  | passed watchId user => exact Acts.append h
  | done response =>
    cases response with
    | signedIn user token => exact Acts.append h
    | listed user watches => exact Acts.append h
    | watch user watchId => exact Acts.append h
    | created user watchId => exact Acts.append h
    | refused error => trivial
    | raised => trivial

omit [DecidableEq κ] in
/-- More events change nothing about what stands behind one. -/
theorem Backed.append {e : OwnershipEvent κ} (h : Backed lower settings hasher journal ownership e) :
    Backed lower settings hasher (events ++ journal) (news ++ ownership) e := by
  cases e with
  | requested k r => trivial
  | recorded k watchId user =>
    obtain ⟨⟨r, clientId, hr, hroute⟩, hacts⟩ := h
    exact ⟨⟨r, clientId, List.mem_append_right _ hr, hroute⟩, hacts.append⟩
  | claimed k clientId user watchIds =>
    obtain ⟨⟨r, hr, hclaims⟩, hacts⟩ := h
    exact ⟨⟨r, List.mem_append_right _ hr, hclaims⟩, hacts.append⟩

omit [DecidableEq κ] in
theorem Credited.append {w u : String} (h : Credited ownership w u) : Credited (news ++ ownership) w u := by
  obtain ⟨k, user, hu, hrecorded | ⟨clientId, watchIds, hclaimed, hw⟩⟩ := h
  · exact ⟨k, user, hu, .inl (List.mem_append_right _ hrecorded)⟩
  · exact ⟨k, user, hu, .inr ⟨clientId, watchIds, List.mem_append_right _ hclaimed, hw⟩⟩

/-- The step lemma: the accounts and the projection take steps of their own, owners are kept, and what is new is
sound. -/
theorem Inv.advance (h : s.Inv lower settings hasher) (events : List (AuthEvent κ))
    (news : List (OwnershipEvent κ)) {auth : AuthSys κ} {history : Accounts}
    {routes : κ → RouteState} (hauth : (AuthSys.machine lower settings hasher).Reach auth)
    (hjournal : auth.journal = events ++ s.auth.journal) (hhistory : accountMachine.Later s.history history)
    (hroutes : ∀ k, routes k = s.routes k ∨
      Sound lower settings hasher auth.journal (news ++ s.ownership) k (routes k) ∧ ListsOwn history.table (routes k))
    (hnews : ∀ e ∈ news, Backed lower settings hasher auth.journal (news ++ s.ownership) e)
    (howned : ∀ w u, history.table.getAccountOwner w = some u →
      s.history.table.getAccountOwner w = some u ∨ Credited (news ++ s.ownership) w u) :
    Inv lower settings hasher ⟨auth, history, routes, news ++ s.ownership⟩ where
  auth := hauth
  history := h.history.later hhistory
  routes k := by
    obtain heq | ⟨hsound, -⟩ := hroutes k
    · show Sound lower settings hasher auth.journal _ k (routes k)
      rw [heq, hjournal]
      exact (h.routes k).append
    · exact hsound
  lists k := by
    obtain heq | ⟨-, hlists⟩ := hroutes k
    · intro user watches hr w hw
      have hold := h.lists k user watches (heq.symm.trans hr) w hw
      exact Accounts.owner_kept h.history hhistory hold
    · exact hlists
  backed e he := by
    obtain hnew | hold := List.mem_append.mp he
    · exact hnews e hnew
    · show Backed lower settings hasher auth.journal _ e
      rw [hjournal]
      exact (h.backed e hold).append
  owned w u hw := by
    obtain hold | hnew := howned w u hw
    · exact (h.owned w u hold).append
    · exact hnew

end Keep

/-! ### Every step keeps it -/

/-- A request that only moves keeps the invariant. -/
theorem Inv.move (h : s.Inv lower settings hasher) {k : κ} {r : RouteState}
    (hr : Sound lower settings hasher s.auth.journal s.ownership k r) (hlists : ListsOwn s.history.table r) :
    (s.move k r).Inv lower settings hasher := by
  refine h.advance [] [] h.auth rfl .refl (fun k' => ?_) (fun e he => by cases he)
    (fun w u hw => .inl hw)
  by_cases hk : k' = k
  · subst hk
    rw [Function.update_self]
    exact .inr ⟨hr, hlists⟩
  · exact .inl (Function.update_of_ne hk _ _)

omit [DecidableEq κ] in
/-- A request that begins knows what it was. -/
theorem begin_sound {journal : List (AuthEvent κ)} {ownership : List (OwnershipEvent κ)} {k : κ} {r : RouteRequest}
    (hr : requested k r ∈ ownership) : Sound lower settings hasher journal ownership k (r.begin enabled) := by
  have hnone : Acts lower settings hasher journal k none := fun u hu => by cases hu
  unfold RouteRequest.begin
  split
  · exact hr
  · split
    · trivial
    · trivial
    · exact ⟨⟨r, hr, rfl⟩, hnone⟩

/-- A request that begins lists nothing. -/
theorem begin_lists (history : WatchHistory) (r : RouteRequest) : ListsOwn history (r.begin enabled) := by
  intro user watches hd
  unfold RouteRequest.begin at hd
  split at hd
  · cases hd
  · split at hd <;> cases hd

omit [DecidableEq κ] in
/-- The errors of the account service list nothing. -/
theorem error_sound (error : AuthError) (journal : List (AuthEvent κ)) (ownership : List (OwnershipEvent κ)) (k : κ) :
    Sound lower settings hasher journal ownership k (.done error.response) ∧
      ∀ history, ListsOwn history (.done error.response) := by
  unfold AuthError.response
  split <;> exact ⟨trivial, fun _ _ _ hd => by cases hd⟩

/-- A request that the account service answered knows its caller. -/
theorem Inv.authenticated (h : s.Inv lower settings hasher) {k : κ} {r : RouteRequest} {outcome : AuthOutcome}
    (hr : requested k r ∈ s.ownership) (hpc : (s.auth.calls k).pc = .done outcome) :
    Sound lower settings hasher s.auth.journal s.ownership k (r.authenticated outcome) ∧
      ∀ history, ListsOwn history (r.authenticated outcome) := by
  have hauth := AuthSys.inv h.auth
  cases outcome with
  | signedIn user token =>
    have hacts : Acts lower settings hasher s.auth.journal k (some user) := by
      rintro _ ⟨⟩ -
      exact hauth.signedIn hpc
    simp only [RouteRequest.authenticated]
    split
    · rename_i clientId hroute
      split
      · exact ⟨hacts, fun _ _ _ hd => by cases hd⟩
      · rename_i c hc
        refine ⟨⟨⟨r, hr, ?_⟩, hacts⟩, fun _ _ _ hd => by cases hd⟩
        rw [hroute]
        exact hc
    · rename_i clientId hroute
      split
      · exact ⟨hacts, fun _ _ _ hd => by cases hd⟩
      · rename_i c hc
        refine ⟨⟨⟨r, hr, ?_⟩, hacts⟩, fun _ _ _ hd => by cases hd⟩
        rw [hroute]
        exact hc
    · exact ⟨trivial, fun _ _ _ hd => by cases hd⟩
  | resolved user =>
    have hacts : Acts lower settings hasher s.auth.journal k user := by
      rintro u rfl hfree
      exact hauth.resolved hfree hpc
    simp only [RouteRequest.authenticated]
    split
    · exact ⟨trivial, fun _ _ _ hd => by cases hd⟩
    · exact ⟨trivial, fun _ _ _ hd => by cases hd⟩
    · exact ⟨⟨⟨r, hr, rfl⟩, hacts⟩, fun _ _ _ hd => by cases hd⟩
  | loggedOut => exact ⟨trivial, fun _ _ _ hd => by cases hd⟩
  | raised error => exact error_sound error _ _ _

/-- A listing is the caller's. -/
theorem Inv.listMyWatches (h : s.Inv lower settings hasher) {k : κ} {user : Option User} (clientId : Option String)
    (hacts : Acts lower settings hasher s.auth.journal k user) :
    Sound lower settings hasher s.auth.journal s.ownership k
      (.done (Dibs.listMyWatches s.history.table user clientId)) ∧
      ListsOwn s.history.table (.done (Dibs.listMyWatches s.history.table user clientId)) := by
  have hnone : Acts lower settings hasher s.auth.journal k none := fun u hu => by cases hu
  cases user with
  | none =>
    simp only [Dibs.listMyWatches]
    split
    · exact ⟨hnone, fun _ _ hd => by cases hd⟩
    · split
      · exact ⟨hnone, fun _ _ hd => by cases hd⟩
      · exact ⟨trivial, fun _ _ hd => by cases hd⟩
  | some u =>
    simp only [Dibs.listMyWatches]
    split
    · rename_i watches hlist
      refine ⟨hacts, fun user watches' hd => ?_⟩
      cases hd
      exact WatchHistory.listForUser_owned (fun v row hrow => (Accounts.keyed h.history v row hrow).1) hlist
    · exact ⟨trivial, fun _ _ hd => by cases hd⟩

/-- Every step keeps the invariant. -/
theorem Inv.moves (h : s.Inv lower settings hasher) (hmoves : Moves enabled lower settings hasher s s') :
    s'.Inv lower settings hasher := by
  cases hmoves with
  | request k r auth hidle hauth =>
    have hnew : requested k r ∈ [requested k r] ++ s.ownership := List.mem_cons_self
    have hreach : (AuthSys.machine lower settings hasher).Reach auth ∧
        ∃ events, auth.journal = events ++ s.auth.journal := by
      obtain ⟨rfl, -⟩ | ⟨hpc, -, rfl⟩ := hauth
      · exact ⟨h.auth, [], rfl⟩
      · exact ⟨h.auth.step (M := AuthSys.machine lower settings hasher) (.start k (r.auth lower)) hpc,
          AuthSys.exec_journal _ _ _ _ _⟩
    obtain ⟨hreach, events, hjournal⟩ := hreach
    refine h.advance events [requested k r] hreach hjournal .refl (fun k' => ?_) (fun e he => ?_)
      (fun w u hw => .inl hw)
    · by_cases hk : k' = k
      · subst hk
        rw [Function.update_self]
        exact .inr ⟨begin_sound hnew, begin_lists _ _⟩
      · exact .inl (Function.update_of_ne hk _ _)
    · obtain rfl := List.mem_singleton.mp he
      trivial
  | auth i hallowed =>
    obtain ⟨events, hjournal⟩ := AuthSys.exec_journal lower settings hasher i s.auth
    exact h.advance events [] (h.auth.step i hallowed) hjournal .refl (fun k => .inl rfl) (fun e he => by cases he)
      (fun w u hw => .inl hw)
  | authenticated k r outcome hroute hpc =>
    have hsound := h.routes k
    rw [hroute] at hsound
    obtain ⟨hr, hlists⟩ := h.authenticated hsound hpc
    exact h.move hr (hlists _)
  | claim k clientId user token hroute =>
    have hsound := h.routes k
    rw [hroute] at hsound
    obtain ⟨⟨r, hr, hclaims⟩, hacts⟩ := hsound
    refine h.advance [] [_] h.auth rfl (.single ⟨.claimAnonymous clientId user.id, trivial, rfl⟩)
      (fun k' => ?_) (fun e he => ?_) (fun w u hw => ?_)
    · by_cases hk : k' = k
      · subst hk
        rw [Function.update_self]
        exact .inr ⟨hacts, fun _ _ hd => by cases hd⟩
      · exact .inl (Function.update_of_ne hk _ _)
    · obtain rfl := List.mem_singleton.mp he
      exact ⟨⟨r, List.mem_cons_of_mem _ hr, hclaims⟩, hacts⟩
    · obtain hold | ⟨rfl, hids⟩ := WatchHistory.owner_of_claim hw
      · exact .inl hold
      · exact .inr ⟨k, user, rfl, .inr ⟨clientId, _, List.mem_cons_self, hids⟩⟩
  | check k route watchId user hroute hwatch =>
    have hsound := h.routes k
    rw [hroute] at hsound
    refine h.move ?_ ?_
    · split
      · exact hsound.2
      · trivial
    · split
      · exact fun _ _ hd => by cases hd
      · exact fun _ _ hd => by cases hd
  | serve k watchId user found hroute =>
    have hsound := h.routes k
    rw [hroute] at hsound
    refine h.move ?_ ?_
    · cases found with
      | false => trivial
      | true => exact hsound
    · cases found with
      | false => exact fun _ _ hd => by cases hd
      | true => exact fun _ _ hd => by cases hd
  | list k clientId user hroute =>
    have hsound := h.routes k
    rw [hroute] at hsound
    obtain ⟨hr, hlists⟩ := h.listMyWatches clientId hsound.2
    exact h.move hr hlists
  | create k watch clientId user hroute hfresh =>
    have hsound := h.routes k
    rw [hroute] at hsound
    obtain ⟨⟨r, hr, hrequest⟩, hacts⟩ := hsound
    refine h.advance [] [_] h.auth rfl
      (.single ⟨.record (creationRecord watch clientId user), .inr hfresh, rfl⟩)
      (fun k' => ?_) (fun e he => ?_) (fun w u hw => ?_)
    · by_cases hk : k' = k
      · subst hk
        rw [Function.update_self]
        exact .inr ⟨hacts, fun _ _ hd => by cases hd⟩
      · exact .inl (Function.update_of_ne hk _ _)
    · obtain rfl := List.mem_singleton.mp he
      exact ⟨⟨r, clientId, List.mem_cons_of_mem _ hr, hrequest⟩, hacts⟩
    · obtain hold | ⟨rfl, hu⟩ := WatchHistory.owner_of_record hw
      · exact .inl hold
      · obtain ⟨account, rfl, rfl⟩ := Option.map_eq_some_iff.mp hu
        exact .inr ⟨k, account, rfl, .inl List.mem_cons_self⟩
  | record call huser =>
    refine h.advance [] [] h.auth rfl (.single ⟨.record call, .inl huser, rfl⟩)
      (fun k => .inl rfl) (fun e he => by cases he) (fun w u hw => ?_)
    obtain hold | ⟨-, hu⟩ := WatchHistory.owner_of_record hw
    · exact .inl hold
    · rw [huser] at hu
      cases hu
  | fail k response hresponse =>
    have hsound := h.routes k
    obtain ⟨rfl, -⟩ | ⟨rfl, -⟩ | ⟨rfl, -⟩ | ⟨clientId, user, token, hroute, rfl⟩ := hresponse
    · exact h.move trivial fun _ _ hd => by cases hd
    · exact h.move trivial fun _ _ hd => by cases hd
    · exact h.move trivial fun _ _ hd => by cases hd
    · rw [hroute] at hsound
      exact h.move hsound.2 fun _ _ hd => by cases hd

/-- An allowed label is a move. -/
theorem moves_of_allowed {i : AccessStep κ} (h : (machine enabled lower settings hasher).allowed s i) :
    Moves enabled lower settings hasher s ((machine enabled lower settings hasher).exec i s) := by
  obtain ⟨s', hs⟩ := Option.isSome_iff_exists.mp h
  simp only [machine, hs, Option.getD_some]
  exact moves_of_step hs

/-- The invariant holds in every reachable state. -/
theorem inv (h : (machine enabled lower settings hasher).Reach s) : s.Inv lower settings hasher := by
  refine Machine.Reach.invariant (P := fun s => s.Inv lower settings hasher) ?_ ?_ h
  · rintro s ⟨hauth, hhistory, hroutes, hownership⟩
    refine ⟨.init hauth, .init hhistory, fun k => ?_, fun k => ?_, fun e he => ?_, fun w u hw => ?_⟩
    · rw [hroutes]
      trivial
    · rw [hroutes]
      exact fun _ _ hd => by cases hd
    · rw [hownership] at he
      cases he
    · rw [hhistory.1] at hw
      cases hw
  · intro s i _ hinv ha
    exact hinv.moves (moves_of_allowed ha)

/-! ### Watches that an account owns -/

/-- A route is about a watch: it reads or cancels it. -/
def About (watchId : String) (route : Route) : Prop := route = .readWatch watchId ∨ route = .cancelWatch watchId

/-- Where a request about a watch can stand when the account `userId` owned the watch before the request came: it
ends with an error of the account service, as if there were no such watch, or as the account. -/
def Guarded (watchId userId : String) (request : RouteRequest) : RouteState → Prop
  | .authenticating r => r = request
  | .known route _ => route = request.route
  | .passed w user => w = watchId ∧ user.map User.id = some userId
  | .done response => response = .raised ∨ (∃ error : AuthError, response = error.response) ∨
    response = .refused ⟨404, "Unknown watch: " ++ watchId⟩ ∨
    ∃ user, response = .watch user watchId ∧ user.map User.id = some userId
  | _ => False

/-- The account owns the watch, and the party has made no request or one that is guarded. -/
structure Watched (watchId userId : String) (k : κ) (s : AccessSys κ) : Prop where
  owner : s.history.table.getAccountOwner watchId = some userId
  quiet : s.routes k = .idle → ∀ r, requested k r ∉ s.ownership
  guarded : ∀ r, requested k r ∈ s.ownership → About watchId r.route → Guarded watchId userId r (s.routes k)

/-- The check lets only the owner pass. -/
theorem forbid_cases {history : WatchHistory} {watchId userId : String} (user : Option String)
    (h : history.getAccountOwner watchId = some userId) :
    (forbidIfOwnedByAnotherAccount (some history) watchId user = .ok () ∧ user = some userId) ∨
      forbidIfOwnedByAnotherAccount (some history) watchId user = .error ⟨404, "Unknown watch: " ++ watchId⟩ := by
  by_cases huser : user = some userId
  · subst huser
    exact .inl ⟨by simp [forbidIfOwnedByAnotherAccount, h], rfl⟩
  · exact .inr (WatchHistory.forbid_of_owner h huser)

/-- A new request about the watch is guarded. -/
theorem guarded_begin {watchId userId : String} {r : RouteRequest} (habout : About watchId r.route) :
    Guarded watchId userId r (r.begin enabled) := by
  unfold RouteRequest.begin
  split
  · rfl
  · obtain hroute | hroute := habout
    · rw [hroute]
      exact hroute.symm
    · rw [hroute]
      exact hroute.symm

/-- A request about the watch that the account service answered is guarded. -/
theorem guarded_authenticated {watchId userId : String} {r : RouteRequest} (habout : About watchId r.route)
    (outcome : AuthOutcome) : Guarded watchId userId r (r.authenticated outcome) := by
  cases outcome with
  | signedIn user token =>
    obtain hroute | hroute := habout
    · simp only [RouteRequest.authenticated, hroute]
      exact .inl rfl
    · simp only [RouteRequest.authenticated, hroute]
      exact .inl rfl
  | resolved user =>
    obtain hroute | hroute := habout
    · simp only [RouteRequest.authenticated, hroute]
      exact hroute.symm
    · simp only [RouteRequest.authenticated, hroute]
      exact hroute.symm
  | loggedOut => exact .inl rfl
  | raised error => exact .inr (.inl ⟨error, rfl⟩)

omit [DecidableEq κ] in
/-- What a state of the system with other routes has to satisfy for one party. -/
theorem Watched.of_eq {watchId userId : String} {k : κ} (h : s.Watched watchId userId k)
    (howner : s'.history.table.getAccountOwner watchId = some userId) (hroute : s'.routes k = s.routes k)
    (hrequested : ∀ r, requested k r ∈ s'.ownership → requested k r ∈ s.ownership) : s'.Watched watchId userId k where
  owner := howner
  quiet hidle r hr := h.quiet (by rw [← hroute, hidle]) r (hrequested r hr)
  guarded r hr habout := by
    rw [hroute]
    exact h.guarded r (hrequested r hr) habout

/-- A request that moves is guarded where it comes to, when it was where it came from. -/
theorem Watched.moved {watchId userId : String} {k : κ} (h : s.Watched watchId userId k) {k' : κ} {r : RouteState}
    (howner : s'.history.table.getAccountOwner watchId = some userId)
    (hroutes : s'.routes = Function.update s.routes k' r)
    (hrequested : ∀ q, requested k q ∈ s'.ownership → requested k q ∈ s.ownership) (hr : r ≠ .idle)
    (hguarded : ∀ request, About watchId request.route → Guarded watchId userId request (s.routes k') →
      Guarded watchId userId request r) : s'.Watched watchId userId k := by
  by_cases hk : k' = k
  · subst hk
    refine ⟨howner, fun hidle => ?_, fun request hrequest habout => ?_⟩
    · rw [hroutes, Function.update_self] at hidle
      exact absurd hidle hr
    · rw [hroutes, Function.update_self]
      exact hguarded request habout (h.guarded request (hrequested request hrequest) habout)
  · refine h.of_eq howner ?_ hrequested
    rw [hroutes]
    exact Function.update_of_ne (Ne.symm hk) _ _

/-- A request that begins is not idle. -/
theorem begin_ne_idle (r : RouteRequest) : r.begin enabled ≠ .idle := by
  unfold RouteRequest.begin
  split
  · simp
  · split <;> simp

/-- A request that the account service answered is not idle. -/
theorem authenticated_ne_idle (r : RouteRequest) (outcome : AuthOutcome) : r.authenticated outcome ≠ .idle := by
  unfold RouteRequest.authenticated
  split
  · split
    · split <;> simp
    · split <;> simp
    · simp
  · split <;> simp
  · simp
  · simp

/-- Every step keeps a watch watched over. -/
theorem Watched.moves {watchId userId : String} {k : κ} (hinv : s.Inv lower settings hasher)
    (hmoves : Moves enabled lower settings hasher s s') (h : s.Watched watchId userId k) :
    s'.Watched watchId userId k := by
  -- What the projection does keeps the owner.
  have hkept : ∀ statement, accountMachine.allowed s.history statement →
      (accountMachine.exec statement s.history).table.getAccountOwner watchId = some userId :=
    fun statement ha => Accounts.owner_exec hinv.history ha h.owner
  cases hmoves with
  | request k' r auth hidle hauth =>
    by_cases hk : k' = k
    · subst hk
      refine ⟨h.owner, fun hidle' => ?_, fun request hrequest habout => ?_⟩
      · exact absurd ((Function.update_self k' (r.begin enabled) s.routes).symm.trans hidle') (begin_ne_idle r)
      · obtain heq | hold := List.mem_cons.mp hrequest
        · cases heq
          show Guarded watchId userId r (Function.update s.routes k' (r.begin enabled) k')
          rw [Function.update_self]
          exact guarded_begin habout
        · exact absurd hold (h.quiet hidle request)
    · refine h.of_eq h.owner (Function.update_of_ne (Ne.symm hk) _ _) fun request hrequest => ?_
      obtain heq | hold := List.mem_cons.mp hrequest
      · cases heq
        exact absurd rfl hk
      · exact hold
  | auth i hallowed => exact h.of_eq h.owner rfl fun _ hr => hr
  | authenticated k' r outcome hroute hpc =>
    refine h.moved h.owner rfl (fun _ hr => hr) (authenticated_ne_idle r outcome) fun request habout hguarded => ?_
    rw [hroute] at hguarded
    rw [show r = request from hguarded]
    exact guarded_authenticated habout outcome
  | claim k' clientId user token hroute =>
    refine h.moved (hkept (.claimAnonymous clientId user.id) trivial) rfl (fun q hq => ?_) (by simp)
      fun request _ hguarded => ?_
    · simpa using hq
    · rw [hroute] at hguarded
      cases hguarded
  | check k' route w user hroute hwatch =>
    refine h.moved h.owner rfl (fun _ hr => hr) ?_ fun request habout hguarded => ?_
    · split <;> simp
    · rw [hroute] at hguarded
      -- The route is the request's, so it is about this watch.
      have hw : w = watchId := by
        rw [show route = request.route from hguarded] at hwatch
        obtain hread | hcancel := habout
        · obtain heq | heq := hwatch
          · exact (Route.readWatch.inj (hread.symm.trans heq)).symm
          · cases hread.symm.trans heq
        · obtain heq | heq := hwatch
          · cases hcancel.symm.trans heq
          · exact (Route.cancelWatch.inj (hcancel.symm.trans heq)).symm
      subst hw
      obtain ⟨hok, huser⟩ | herror := forbid_cases (user.map User.id) h.owner
      · rw [hok]
        exact ⟨rfl, huser⟩
      · rw [herror]
        exact .inr (.inr (.inl rfl))
  | serve k' w user found hroute =>
    refine h.moved h.owner rfl (fun _ hr => hr) (by simp) fun request _ hguarded => ?_
    rw [hroute] at hguarded
    obtain ⟨rfl, huser⟩ := hguarded
    cases found with
    | false => exact .inr (.inr (.inl rfl))
    | true => exact .inr (.inr (.inr ⟨user, rfl, huser⟩))
  | list k' clientId user hroute =>
    refine h.moved h.owner rfl (fun _ hr => hr) (by simp) fun request habout hguarded => ?_
    rw [hroute] at hguarded
    have hlists : Route.listMyWatches clientId = request.route := hguarded
    obtain hread | hcancel := habout
    · cases hlists.trans hread
    · cases hlists.trans hcancel
  | create k' watch clientId user hroute hfresh =>
    refine h.moved (hkept (.record (creationRecord watch clientId user)) (.inr hfresh)) rfl (fun q hq => ?_) (by simp)
      fun request habout hguarded => ?_
    · simpa using hq
    · rw [hroute] at hguarded
      have hcreates : Route.createWatch clientId = request.route := hguarded
      obtain hread | hcancel := habout
      · cases hcreates.trans hread
      · cases hcreates.trans hcancel
  | record call huser => exact h.of_eq (hkept (.record call) (.inl huser)) rfl fun _ hr => hr
  | fail k' response hresponse =>
    refine h.moved h.owner rfl (fun _ hr => hr) (by simp) fun request _ hguarded => ?_
    obtain ⟨rfl, -⟩ | ⟨rfl, -⟩ | ⟨rfl, -⟩ | ⟨clientId, user, token, hroute, rfl⟩ := hresponse
    · exact .inl rfl
    · exact .inl rfl
    · exact .inl rfl
    · rw [hroute] at hguarded
      cases hguarded

/-- A move leaves the requests alone, or takes one of them on and records no request of another party. -/
theorem Moves.route (h : Moves enabled lower settings hasher s s') :
    (s'.routes = s.routes ∧ s'.ownership = s.ownership) ∨
      ∃ k' r, r ≠ .idle ∧ s'.routes = Function.update s.routes k' r ∧
        ∀ k q, k ≠ k' → requested k q ∈ s'.ownership → requested k q ∈ s.ownership := by
  have hsame : ∀ k q (k' : κ), k ≠ k' → requested k q ∈ s.ownership → requested k q ∈ s.ownership :=
    fun _ _ _ _ hq => hq
  cases h with
  | request k' r auth hidle hauth =>
    refine .inr ⟨k', _, begin_ne_idle r, rfl, fun k q hk hq => ?_⟩
    obtain heq | hold := List.mem_cons.mp hq
    · cases heq
      exact absurd rfl hk
    · exact hold
  | auth i hallowed => exact .inl ⟨rfl, rfl⟩
  | authenticated k' r outcome hroute hpc =>
    exact .inr ⟨k', _, authenticated_ne_idle r outcome, rfl, fun k q => hsame k q k'⟩
  | claim k' clientId user token hroute =>
    exact .inr ⟨k', _, by simp, rfl, fun k q _ hq => by simpa using hq⟩
  | check k' route w user hroute hwatch =>
    refine .inr ⟨k', _, ?_, rfl, fun k q => hsame k q k'⟩
    split <;> simp
  | serve k' w user found hroute => exact .inr ⟨k', _, by simp, rfl, fun k q => hsame k q k'⟩
  | list k' clientId user hroute => exact .inr ⟨k', _, by simp, rfl, fun k q => hsame k q k'⟩
  | create k' watch clientId user hroute hfresh =>
    exact .inr ⟨k', _, by simp, rfl, fun k q _ hq => by simpa using hq⟩
  | record call huser => exact .inl ⟨rfl, rfl⟩
  | fail k' response hresponse => exact .inr ⟨k', _, by simp, rfl, fun k q => hsame k q k'⟩

/-- No request is recorded of a party that has made none. -/
theorem quiet_of_idle (h : (machine enabled lower settings hasher).Reach s) (k : κ) (hidle : s.routes k = .idle)
    (r : RouteRequest) : requested k r ∉ s.ownership := by
  revert hidle r
  refine Machine.Reach.invariant (P := fun s => s.routes k = .idle → ∀ r, requested k r ∉ s.ownership) ?_ ?_ h
  · rintro s ⟨-, -, -, hownership⟩ - r
    rw [hownership]
    exact List.not_mem_nil
  · intro s i _ ih ha hidle r
    obtain ⟨hroutes, hownership⟩ | ⟨k', r', hr', hroutes, hrequested⟩ := (moves_of_allowed ha).route
    · rw [hownership]
      exact ih (by rw [← hroutes, hidle]) r
    · rw [hroutes] at hidle
      have hk : k ≠ k' := by
        rintro rfl
        rw [Function.update_self] at hidle
        exact hr' hidle
      rw [Function.update_of_ne hk] at hidle
      exact fun hmem => ih hidle r (hrequested k r hk hmem)

/-- A watch that an account owns is guarded: when the account owned it before a request to read or cancel it came in,
then however that request interleaves with signups, logins, claims, creations and polls, it is served only as the
account, by a caller that has a session of it, which a signup or a verified login opened; every other caller is
answered exactly as if there were no such watch, or with an error that does not depend on it. -/
theorem owned_watch_guarded (h : (machine enabled lower settings hasher).Reach s) {watchId userId : String}
    (howner : s.history.table.getAccountOwner watchId = some userId) {k : κ} (hidle : s.routes k = .idle)
    (hl : (machine enabled lower settings hasher).Later s s') (hfree : CollisionFree s'.auth.journal)
    {request : RouteRequest} (hrequest : requested k request ∈ s'.ownership) (habout : About watchId request.route)
    {response : RouteResponse} (hdone : s'.routes k = .done response) :
    s'.history.table.getAccountOwner watchId = some userId ∧
      (response = .raised ∨ (∃ error : AuthError, response = error.response) ∨
        response = .refused ⟨404, "Unknown watch: " ++ watchId⟩ ∨
        ∃ user, response = .watch (some user) watchId ∧ user.id = userId ∧
          ActsAs lower settings hasher s'.auth.journal k user) := by
  have hwatched : s'.Watched watchId userId k := by
    refine hl.stable (P := fun s => s.Watched watchId userId k) ?_ h ?_
    · exact fun s i hr hw ha => hw.moves (inv hr) (moves_of_allowed ha)
    · have hquiet := quiet_of_idle h k hidle
      exact ⟨howner, fun _ => hquiet, fun r hr _ => absurd hr (hquiet r)⟩
  refine ⟨hwatched.owner, ?_⟩
  have hguarded := hwatched.guarded request hrequest habout
  rw [hdone] at hguarded
  obtain hraised | herror | hrefused | ⟨user, hwatch, huser⟩ := hguarded
  · exact .inl hraised
  · exact .inr (.inl herror)
  · exact .inr (.inr (.inl hrefused))
  · obtain ⟨account, rfl, hid⟩ := Option.map_eq_some_iff.mp huser
    have hsound := (inv (h.later hl)).routes k
    rw [hdone, hwatch] at hsound
    exact .inr (.inr (.inr ⟨account, hwatch, hid, hsound account rfl hfree⟩))

/-- How a watch comes to an account, and what an account sees: in every reachable state a watch that an account owns
was created by a request that acted as the account, or assigned by the claim of one for the client id that it brought
when it signed up or in; and a listing for an account shows only watches that are the account's. -/
theorem ownership_earned (h : (machine enabled lower settings hasher).Reach s) (hfree : CollisionFree s.auth.journal) :
    (∀ watchId userId, s.history.table.getAccountOwner watchId = some userId → ∃ k request user,
      requested k request ∈ s.ownership ∧ user.id = userId ∧ ActsAs lower settings hasher s.auth.journal k user ∧
        (recorded k watchId (some user) ∈ s.ownership ∧ (∃ clientId, request.route = .createWatch clientId) ∨
          ∃ clientId watchIds, claimed k clientId user watchIds ∈ s.ownership ∧ watchId ∈ watchIds ∧
            request.route.claims = some clientId)) ∧
      ∀ k user watches, s.routes k = .done (.listed (some user) watches) →
        ActsAs lower settings hasher s.auth.journal k user ∧
          ∀ w ∈ watches, s.history.table.getAccountOwner w.watchId = some user.id := by
  have hinv := inv h
  refine ⟨fun watchId userId howner => ?_, fun k user watches hroute => ⟨?_, hinv.lists k user watches hroute⟩⟩
  · obtain ⟨k, user, huser, hrecorded | ⟨clientId, watchIds, hclaimed, hwatch⟩⟩ := hinv.owned watchId userId howner
    · obtain ⟨⟨r, clientId, hr, hroute⟩, hacts⟩ := hinv.backed _ hrecorded
      exact ⟨k, r, user, hr, huser, hacts user rfl hfree, .inl ⟨hrecorded, clientId, hroute⟩⟩
    · obtain ⟨⟨r, hr, hclaims⟩, hacts⟩ := hinv.backed _ hclaimed
      exact ⟨k, r, user, hr, huser, hacts user rfl hfree, .inr ⟨clientId, watchIds, hclaimed, hwatch, hclaims⟩⟩
  · have hsound := hinv.routes k
    rw [hroute] at hsound
    exact hsound user rfl hfree

/-- Whether a step can be taken is computed. -/
instance (i : AccessStep κ) : Decidable ((machine enabled lower settings hasher).allowed s i) :=
  inferInstanceAs (Decidable ((s.step enabled lower settings hasher i).isSome = true))

end Machine

/-! ### A run -/

/-- The routes before any request. -/
def sample : AccessSys ℕ := ⟨AuthSys.sampleAuth, Accounts.fresh, fun _ => .idle, []⟩

/-- Ada signs up, and creates a watch with her token. -/
def creationRun : List (AccessStep ℕ) :=
  [.request 0 ⟨.signup "ada@dibs.ca" "correct horse" none, none⟩, .auth (.execute 0 "salt" "" 0), .auth (.resume 0 ""),
    .auth (.execute 0 "" "ada" 0), .auth (.resume 0 "token"), .auth (.execute 0 "" "" 0), .auth (.resume 0 ""),
    .authenticated 0,
    .request 1 ⟨.createWatch none, some "Bearer token"⟩, .auth (.execute 1 "" "" 0), .auth (.resume 1 ""),
    .auth (.execute 1 "" "" 0), .auth (.resume 1 ""), .authenticated 1, .create 1 (.sample "w" false 1000000000 5)]

/-- A stranger and Ada ask for the watch at once. -/
def readRun : List (AccessStep ℕ) :=
  [.request 2 ⟨.readWatch "w", none⟩, .request 3 ⟨.readWatch "w", some "bearer  token"⟩, .authenticated 2,
    .auth (.execute 3 "" "" 0), .auth (.resume 3 ""), .check 2, .auth (.execute 3 "" "" 0), .auth (.resume 3 ""),
    .authenticated 3, .check 3, .serve 3 true]

/-- The machine of the sample. -/
abbrev sampleRoutes : Machine (AccessSys ℕ) (AccessStep ℕ) :=
  machine true String.toLower AuthSys.sampleAccountSettings AuthSys.sampleHasher

/-- The routes after the creation. -/
def created : AccessSys ℕ := sampleRoutes.final sample creationRun

/-- The routes after the reads. -/
def served : AccessSys ℕ := sampleRoutes.final created readRun

theorem created_reach : sampleRoutes.Reach created := by
  have hinit : sampleRoutes.init sample := ⟨⟨rfl, rfl, fun _ => rfl⟩, ⟨rfl, rfl⟩, fun _ => rfl, rfl⟩
  have hruns : sampleRoutes.Runs sample creationRun := by decide +kernel
  exact (Machine.Reach.init hinit).final hruns

theorem served_later : sampleRoutes.Later created served :=
  .of_runs (by decide +kernel)

example : created.history.table.getAccountOwner "w" = some "ada" ∧
    served.routes 2 = .done (.refused ⟨404, "Unknown watch: w"⟩) ∧
    served.routes 3 = .done (.watch (some ⟨"ada", "ada@dibs.ca", 0⟩) "w") := by
  decide +kernel

theorem served_collisionFree : CollisionFree served.auth.journal := by
  have htokens : ∀ t ∈ tokensOf served.auth.journal, t = "token" := by decide +kernel
  intro t ht t' ht' _
  rw [htokens t ht, htokens t' ht']

theorem owned_watch_guarded_served :
    served.history.table.getAccountOwner "w" = some "ada" ∧
      (RouteResponse.watch (some ⟨"ada", "ada@dibs.ca", 0⟩) "w" = .raised ∨
        (∃ error : AuthError, RouteResponse.watch (some ⟨"ada", "ada@dibs.ca", 0⟩) "w" = error.response) ∨
        RouteResponse.watch (some ⟨"ada", "ada@dibs.ca", 0⟩) "w" = .refused ⟨404, "Unknown watch: " ++ "w"⟩ ∨
        ∃ user, RouteResponse.watch (some ⟨"ada", "ada@dibs.ca", 0⟩) "w" = .watch (some user) "w" ∧ user.id = "ada" ∧
          ActsAs String.toLower AuthSys.sampleAccountSettings AuthSys.sampleHasher served.auth.journal 3 user) := by
  have howner : created.history.table.getAccountOwner "w" = some "ada" := by decide +kernel
  have hidle : created.routes 3 = .idle := by decide +kernel
  have hrequest : requested 3 ⟨.readWatch "w", some "bearer  token"⟩ ∈ served.ownership := by decide +kernel
  have hdone : served.routes 3 = .done (.watch (some ⟨"ada", "ada@dibs.ca", 0⟩) "w") := by decide +kernel
  exact owned_watch_guarded created_reach howner hidle served_later served_collisionFree hrequest (.inl rfl) hdone

theorem ownership_earned_served :
    (∀ watchId userId, served.history.table.getAccountOwner watchId = some userId → ∃ k request user,
      requested k request ∈ served.ownership ∧ user.id = userId ∧
        ActsAs String.toLower AuthSys.sampleAccountSettings AuthSys.sampleHasher served.auth.journal k user ∧
        (recorded k watchId (some user) ∈ served.ownership ∧ (∃ clientId, request.route = .createWatch clientId) ∨
          ∃ clientId watchIds, claimed k clientId user watchIds ∈ served.ownership ∧ watchId ∈ watchIds ∧
            request.route.claims = some clientId)) ∧
      ∀ k user watches, served.routes k = .done (.listed (some user) watches) →
        ActsAs String.toLower AuthSys.sampleAccountSettings AuthSys.sampleHasher served.auth.journal k user ∧
          ∀ w ∈ watches, served.history.table.getAccountOwner w.watchId = some user.id :=
  ownership_earned (created_reach.later served_later) served_collisionFree

end AccessSys

end Dibs
