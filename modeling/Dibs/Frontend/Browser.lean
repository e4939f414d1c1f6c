import Dibs.Accounts.Tokens
import Dibs.Api.Access

/-!
# The sessions of a browser

The site over the account service: the token store of `lib/auth.ts`, the client id of `lib/client-id.ts`, the requests
of `lib/api.ts` and the account that `AuthProvider.tsx` shows. A browser has one `localStorage` and any number of
pages, each with its `memoryToken`, its `cached` client id and its shown account; a page that is reloaded is another
page. A page does one thing at a time, but nothing keeps the pages from each other: every access to `localStorage` is a
step of its own, which works or raises, and other pages take theirs in between. Every request is a call of the service,
which takes its steps while the request is on its way, as does whoever else calls it. Responses come in any order, or
not at all.
-/

namespace Dibs

open AuthEvent

/-! ## The token store -/

/-- The window of a page: what is in `localStorage`, and the `memoryToken` of the page. -/
structure TokenStore where
  stored : Option String
  memoryToken : Option String
deriving DecidableEq, Repr

namespace TokenStore

/-- `getSessionToken`; `reads` says whether `localStorage` can be read. -/
def getSessionToken (reads : Bool) (w : TokenStore) : Option String :=
  if reads then w.stored.or w.memoryToken else w.memoryToken

/-- `setSessionToken`; `writes` says whether `localStorage` can be written. -/
def setSessionToken (writes : Bool) (token : String) (w : TokenStore) : TokenStore :=
  ⟨if writes then some token else w.stored, some token⟩

/-- `clearSessionToken`. -/
def clearSessionToken (writes : Bool) (w : TokenStore) : TokenStore :=
  ⟨if writes then none else w.stored, none⟩

/-- A token of the store. -/
def Has (w : TokenStore) (token : String) : Prop := w.stored = some token ∨ w.memoryToken = some token

/-- A token that is got was there. -/
theorem has_of_get {w : TokenStore} {reads : Bool} {token : String} (h : w.getSessionToken reads = some token) :
    w.Has token := by
  unfold getSessionToken at h
  split at h
  · exact (Option.or_eq_some_iff.mp h).imp id And.right
  · exact .inr h

/-- After a token is set, there is that one besides what was there. -/
theorem has_set {w : TokenStore} {writes : Bool} {token t : String} (h : (w.setSessionToken writes token).Has t) :
    w.Has t ∨ t = token := by
  rcases h with hstored | hmemory
  · simp only [setSessionToken] at hstored
    split at hstored
    · exact .inr (Option.some.inj hstored).symm
    · exact .inl (.inl hstored)
  · exact .inr (Option.some.inj hmemory).symm

/-- What is there after a clear was there before. -/
theorem has_clear {w : TokenStore} {writes : Bool} {t : String} (h : (w.clearSessionToken writes).Has t) :
    w.Has t := by
  rcases h with hstored | hmemory
  · simp only [clearSessionToken] at hstored
    split at hstored
    · contradiction
    · exact .inl hstored
  · contradiction

end TokenStore

/-! ## The client id -/

/-- The characters of `crypto.randomUUID`. -/
def uuidAlphabet : String := "0123456789abcdef-"

/-- `FALLBACK_ALPHABET`. -/
def fallbackAlphabet : String := "ABCDEFGHIJKLMNOPQRSTUVWXYZabcdefghijklmnopqrstuvwxyz0123456789"

/-- What `generateId` may yield: a UUID, or 32 characters of its own. -/
def GeneratesId (id : String) : Prop :=
  id.toList.length = 36 ∧ id.toList.all uuidAlphabet.toList.contains = true ∨
    id.toList.length = 32 ∧ id.toList.all fallbackAlphabet.toList.contains = true

instance (id : String) : Decidable (GeneratesId id) := inferInstanceAs (Decidable (_ ∧ _ ∨ _ ∧ _))

/-- An id that the API takes. -/
def IsClientId (id : String) : Prop := SizedWithin 1 200 id ∧ id.toList.all isClientIdChar = true

instance (id : String) : Decidable (IsClientId id) := inferInstanceAs (Decidable (_ ∧ _))

/-- The API takes what `generateId` yields. -/
theorem GeneratesId.isClientId {id : String} (h : GeneratesId id) : IsClientId id := by
  have huuid : uuidAlphabet.toList.all isClientIdChar = true := by decide
  have hfallback : fallbackAlphabet.toList.all isClientIdChar = true := by decide
  rw [List.all_eq_true] at huuid hfallback
  rcases h with ⟨hlength, hchars⟩ | ⟨hlength, hchars⟩
  · rw [List.all_eq_true] at hchars
    exact ⟨⟨by omega, by omega⟩, List.all_eq_true.mpr fun c hc => huuid c (List.contains_iff_mem.mp (hchars c hc))⟩
  · rw [List.all_eq_true] at hchars
    exact ⟨⟨by omega, by omega⟩, List.all_eq_true.mpr fun c hc => hfallback c (List.contains_iff_mem.mp (hchars c hc))⟩

/-! ## Requests and responses -/

/-- The functions of `lib/api.ts`. -/
inductive ApiCall
  | signup (email password : String)
  | login (email password : String)
  | logout
  | me
  /-- `parseAndBook`, `listMyWatches`, `createWatch` or `cancelWatch`, whose routes resolve the caller. -/
  | watches
deriving DecidableEq, Repr

/-- What `establishSession` is for: the requests that go out without the session. -/
def ApiCall.omitSession : ApiCall → Bool
  | signup _ _ | login _ _ => true
  | _ => false

/-- The `Authorization` header of a token. -/
def authorizationOf (token : String) : String := "Bearer " ++ token

/-- What the routes make of a request with a header; a logout without a token calls nothing. -/
def ApiCall.request (lower : String → String) (authorization : Option String) : ApiCall → AuthRequest
  | signup email password => .signup email password
  | login email password => .login email password
  | logout => match bearerToken lower authorization with
    | some token => .logout token
    | none => .authenticate none
  | me | watches => .authenticate (bearerToken lower authorization)

/-- A letter, a digit, a hyphen or an underscore is no space. -/
theorem isSpace_of_isClientIdChar {c : Char} (h : isClientIdChar c = true) : isSpace c = false := by
  have hn : (65 ≤ c.toNat ∧ c.toNat ≤ 90) ∨ (97 ≤ c.toNat ∧ c.toNat ≤ 122) ∨ (48 ≤ c.toNat ∧ c.toNat ≤ 57) ∨
      c.toNat = 95 ∨ c.toNat = 45 := by
    simp only [isClientIdChar, Bool.or_eq_true, Bool.and_eq_true, decide_eq_true_eq, or_assoc] at h
    rcases h with h | h | h | rfl | rfl
    · exact .inl h
    · exact .inr (.inl h)
    · exact .inr (.inr (.inl h))
    · exact .inr (.inr (.inr (.inl rfl)))
    · exact .inr (.inr (.inr (.inr rfl)))
  generalize hc : c.toNat = n at hn
  have hother : [0x20, 0x85, 0xa0, 0x1680, 0x2028, 0x2029, 0x202f, 0x205f, 0x3000].contains n = false := by
    simp only [List.contains_cons, List.contains_nil, Bool.or_false, Bool.or_eq_false_iff, beq_eq_false_iff_ne]
    omega
  simp only [isSpace, isWhiteSpace, hc, hother, Bool.or_false, Bool.or_eq_false_iff, Bool.and_eq_false_iff,
    decide_eq_false_iff_not]
  omega

/-- Nothing is stripped from a token that is safe in a URL. -/
theorem pyStrip_of_isClientIdChar {token : String} (h : token.toList.all isClientIdChar = true) :
    pyStrip token = token := by
  have hspace : ∀ c ∈ token.toList, isSpace c = false := fun c hc =>
    isSpace_of_isClientIdChar (List.all_eq_true.mp h c hc)
  have hleft : token.toList.dropWhile isSpace = token.toList := by
    rw [List.dropWhile_eq_self_iff]
    intro hpos
    simp [hspace _ (List.getElem_mem hpos)]
  have hright : token.toList.rdropWhile isSpace = token.toList := by
    rw [List.rdropWhile_eq_self_iff]
    intro hne
    simp [hspace _ (List.getLast_mem hne)]
  rw [pyStrip, hleft, hright, String.ofList_toList]

/-- The API takes the client id of a request as it is. -/
theorem extractClientId_of_isClientId {id : String} (h : IsClientId id) : extractClientId (some id) = some id := by
  simp only [extractClientId, pyStrip_of_isClientIdChar h.2]
  exact if_pos h

/-- `str.lower` turns `Bearer ` into `bearer `, whatever follows. -/
def LowersBearer (lower : String → String) : Prop :=
  ∀ s, "bearer ".toList.isPrefixOf (lower ("Bearer " ++ s)).toList = true

/-- The API reads the token that a request presents. -/
theorem bearerToken_authorizationOf {lower : String → String} (hlower : LowersBearer lower) {token : String}
    (hne : token ≠ "") (hsafe : token.toList.all isClientIdChar = true) :
    bearerToken lower (some (authorizationOf token)) = some token := by
  have hdrop : String.ofList (("Bearer " ++ token).toList.drop 7) = token := by
    rw [String.toList_append, show "Bearer ".toList = ['B', 'e', 'a', 'r', 'e', 'r', ' '] by decide]
    exact String.ofList_toList
  change (if "bearer ".toList.isPrefixOf (lower ("Bearer " ++ token)).toList = true then
    if pyStrip (String.ofList (("Bearer " ++ token).toList.drop 7)) = "" then none
    else some (pyStrip (String.ofList (("Bearer " ++ token).toList.drop 7))) else none) = some token
  rw [if_pos (hlower token), hdrop, pyStrip_of_isClientIdChar hsafe, if_neg hne]

/-- What a page gets back from a request. -/
inductive ApiResponse
  | established (user : User) (token : String)
  | account (user : User)
  | ok
  /-- No response, or one that is not ok, with its status. -/
  | failed (status : Option ℕ)
deriving DecidableEq, Repr

/-- The responses to a request, by where its call is. A request may fail on its way for reasons of its own. -/
def ApiCall.answers (call : ApiCall) (pc : AuthPc) : ApiResponse → Bool
  | .established user token => call.omitSession && decide (pc = .done (.signedIn user token))
  | .account user => decide (call = .me) && decide (pc = .done (.resolved (some user)))
  | .ok => match call with
    | .logout => decide (pc = .done .loggedOut) || decide (pc = .done (.resolved none))
    | .watches => true
    | _ => false
  | .failed _ => true

/-- A request that a page has sent, with the token and the client id of its headers. -/
structure Sent (π : Type*) where
  page : π
  call : ApiCall
  token : Option String
  clientId : String
deriving DecidableEq, Repr

/-- What the routes make of it. -/
def Sent.request {π : Type*} (lower : String → String) (f : Sent π) : AuthRequest :=
  f.call.request lower (f.token.map authorizationOf)

/-! ## Pages -/

/-- A request that a page is about to send, by the access to `localStorage` that comes next. -/
inductive Sending
  /-- `getItem` of `getClientId`. -/
  | identify (call : ApiCall)
  /-- `setItem` of `getClientId`, with the id that was generated. -/
  | persist (call : ApiCall) (generated : String)
  /-- `getItem` of `getSessionToken`, with the client id of the request. -/
  | authorize (call : ApiCall) (clientId : String)
deriving DecidableEq, Repr

/-- A page: its `memoryToken`, its `cached` client id, the account that it shows, whether it has asked for it, and the
request that it is about to send. -/
structure Page where
  memoryToken : Option String
  cached : Option String
  user : Option User
  hydrated : Bool
  sending : Option Sending

namespace Page

/-- `apiFetch` up to its first access to `localStorage`: a `cached` client id needs none. -/
def prepare (call : ApiCall) (p : Page) : Page :=
  { p with sending := some (match p.cached with
      | some id => .authorize call id
      | none => .identify call) }

/-- `getClientId` has its id. -/
def identified (call : ApiCall) (id : String) (p : Page) : Page :=
  { p with cached := some id, sending := some (.authorize call id) }

/-- `getClientId` after its `getItem`; `reads` says whether it works, and `fresh` is what `generateId` yields. -/
def gotItem (reads : Bool) (fresh : String) (call : ApiCall) (stored : Option String) (p : Page) : Page :=
  if reads then match stored.filter (· ≠ "") with
    | some existing => p.identified call existing
    | none => { p with sending := some (.persist call fresh) }
  else p.identified call fresh

/-- `getClientId` after its `setItem`, with what is then stored; where it raises, another id is generated. -/
def didSetItem (writes : Bool) (generated fresh : String) (call : ApiCall) (stored : Option String) (p : Page) :
    Option String × Page :=
  if writes then (some generated, p.identified call generated) else (stored, p.identified call fresh)

/-- The call whose `getItem` of `getClientId` comes next. -/
def identifying (p : Page) : Option ApiCall :=
  match p.sending with
  | some (.identify call) => some call
  | _ => none

/-- The call whose `setItem` of `getClientId` comes next, with the id that was generated. -/
def persisting (p : Page) : Option (ApiCall × String) :=
  match p.sending with
  | some (.persist call generated) => some (call, generated)
  | _ => none

/-- The call whose `getItem` of `getSessionToken` comes next, with its client id. -/
def authorizing (p : Page) : Option (ApiCall × String) :=
  match p.sending with
  | some (.authorize call clientId) => some (call, clientId)
  | _ => none

/-- A page that begins a request has read nothing yet. -/
theorem persisting_prepare (call : ApiCall) (p : Page) : (p.prepare call).persisting = none := by
  unfold prepare persisting
  cases p.cached <;> rfl

/-- A page looks for its id only while it has none, and sends the one that it has; the API takes it. -/
structure Sound (p : Page) : Prop where
  cached : ∀ id ∈ p.cached, IsClientId id
  identify : p.identifying.isSome = true → p.cached = none
  persist : ∀ call generated, p.persisting = some (call, generated) → p.cached = none ∧ IsClientId generated
  authorize : ∀ call clientId, p.authorizing = some (call, clientId) → p.cached = some clientId

/-- A page that has its id. -/
theorem identified_sound (call : ApiCall) {id : String} (hid : IsClientId id) (p : Page) :
    (p.identified call id).Sound := by
  refine ⟨fun i hi => ?_, by simp [identifying, identified], by simp [persisting, identified], ?_⟩
  · obtain rfl := Option.some.inj hi
    exact hid
  · intro call' clientId hauthorizing
    obtain ⟨-, rfl⟩ := Prod.mk.inj (Option.some.inj hauthorizing)
    rfl

theorem Sound.prepare {p : Page} (h : p.Sound) (call : ApiCall) : (p.prepare call).Sound := by
  obtain ⟨memoryToken, cached, user, hydrated, sending⟩ := p
  cases cached with
  | none =>
    exact ⟨by simp [Page.prepare], fun _ => rfl, by simp [persisting, Page.prepare],
      by simp [authorizing, Page.prepare]⟩
  | some id =>
    refine ⟨h.cached, by simp [identifying, Page.prepare], by simp [persisting, Page.prepare], ?_⟩
    intro call' clientId hauthorizing
    obtain ⟨-, rfl⟩ := Prod.mk.inj (Option.some.inj hauthorizing)
    rfl

theorem Sound.gotItem {p : Page} (h : p.Sound) {call : ApiCall} (hreading : p.identifying = some call)
    {stored : Option String} (hstored : ∀ id ∈ stored, IsClientId id) (reads : Bool) {fresh : String}
    (hfresh : IsClientId fresh) : (p.gotItem reads fresh call stored).Sound := by
  have hnone : p.cached = none := h.identify (by rw [hreading]; rfl)
  unfold Page.gotItem
  split_ifs
  · cases hfilter : stored.filter (· ≠ "") with
    | some existing => exact identified_sound call (hstored _ (Option.eq_some_of_filter_eq_some hfilter)) p
    | none =>
      refine ⟨h.cached, by simp [identifying], fun call' generated hpersisting => ?_, by simp [authorizing]⟩
      obtain ⟨-, rfl⟩ := Prod.mk.inj (Option.some.inj hpersisting)
      exact ⟨hnone, hfresh⟩
  · exact identified_sound call hfresh p

theorem Sound.didSetItem {p : Page} (h : p.Sound) {call : ApiCall} {generated : String}
    (hwriting : p.persisting = some (call, generated)) (writes : Bool) {fresh : String} (hfresh : IsClientId fresh)
    (stored : Option String) : (p.didSetItem writes generated fresh call stored).2.Sound := by
  unfold Page.didSetItem
  split_ifs
  · exact identified_sound call (h.persist call generated hwriting).2 p
  · exact identified_sound call hfresh p

/-- Looking for its id a page changes neither its token nor its account. -/
theorem gotItem_frame (reads : Bool) (fresh : String) (call : ApiCall) (stored : Option String) (p : Page) :
    (p.gotItem reads fresh call stored).memoryToken = p.memoryToken ∧
      (p.gotItem reads fresh call stored).user = p.user := by
  unfold gotItem
  split_ifs
  · split <;> exact ⟨rfl, rfl⟩
  · exact ⟨rfl, rfl⟩

theorem didSetItem_frame (writes : Bool) (generated fresh : String) (call : ApiCall) (stored : Option String)
    (p : Page) : (p.didSetItem writes generated fresh call stored).2.memoryToken = p.memoryToken ∧
      (p.didSetItem writes generated fresh call stored).2.user = p.user := by
  unfold didSetItem
  split_ifs <;> exact ⟨rfl, rfl⟩

end Page

/-! ## The system -/

/-- What is in `localStorage`. -/
structure LocalStorage where
  token : Option String
  clientId : Option String

/-- The service, `localStorage`, the pages, the requests that were sent, those that were responded to, and those whose
caller has taken its response. -/
structure BrowserSys (κ π : Type*) where
  api : DrawSys κ
  storage : LocalStorage
  pages : π → Page
  sent : κ → Option (Sent π)
  received : κ → Option ApiResponse
  settled : List κ

/-- What can happen next. -/
inductive BrowserStep (κ π : Type*)
  /-- The service takes a step, or somebody else calls it. -/
  | api (i : AuthStep κ)
  /-- `AuthProvider` of a page looks for a token, and asks whose it is. -/
  | hydrate (page : π) (reads : Bool)
  /-- A page begins any other request. -/
  | prepare (page : π) (call : ApiCall)
  /-- `getClientId` reads; `fresh` is the id that it generates if it needs one. -/
  | getItem (page : π) (reads : Bool) (fresh : String)
  /-- `getClientId` writes; `fresh` is the id that it generates if it cannot. -/
  | setItem (page : π) (writes : Bool) (fresh : String)
  /-- `getSessionToken` reads, and the request is on its way. -/
  | fetch (k : κ) (page : π) (reads : Bool)
  /-- `apiFetch` has its response. -/
  | receive (k : κ) (response : ApiResponse) (writes : Bool)
  /-- Its caller takes it. -/
  | settle (k : κ) (writes : Bool)

namespace BrowserSys

variable {κ π : Type*}

section

variable (s : BrowserSys κ π)

/-- The token store as a page has it. -/
def store (page : π) : TokenStore := ⟨s.storage.token, (s.pages page).memoryToken⟩

/-- The token that `apiFetch` presents; an empty one is none. -/
def presents (page : π) (call : ApiCall) (reads : Bool) : Option String :=
  if call.omitSession then none else ((s.store page).getSessionToken reads).filter (· ≠ "")

/-- A token of the browser: one that it has stored, or that a request of it presents. -/
def Keeps (token : String) : Prop :=
  (∃ page, (s.store page).Has token) ∨ ∃ k f, s.sent k = some f ∧ f.token = some token

/-- The browser was signed in to an account, with a token. -/
def SignedIn (user : User) (token : String) : Prop :=
  ∃ k f, s.sent k = some f ∧ f.call.omitSession = true ∧ (s.api.auth.calls k).pc = .done (.signedIn user token)

variable [DecidableEq π]

/-- The browser with what a page does about its client id. -/
def withPage (page : π) (clientId : Option String) (p : Page) : BrowserSys κ π :=
  { s with
    storage := { s.storage with clientId := clientId }
    pages := Function.update s.pages page p }

/-- The browser with the token store and the account of a page. -/
def put (page : π) (w : TokenStore) (user : Option User) : BrowserSys κ π :=
  { s with
    storage := { s.storage with token := w.stored }
    pages := Function.update s.pages page { s.pages page with memoryToken := w.memoryToken, user := user } }

/-- What `apiFetch` does with a response: it clears the token that is rejected. -/
def reject (f : Sent π) (response : ApiResponse) (writes : Bool) : BrowserSys κ π :=
  if response = .failed (some 401) ∧ f.token.isSome then
    s.put f.page ((s.store f.page).clearSessionToken writes) (s.pages f.page).user
  else s

/-- What its caller does: `establishSession` sets the token, `logout` clears it whatever the response is, and
`AuthProvider` shows the account. -/
def take (f : Sent π) (response : ApiResponse) (writes : Bool) : BrowserSys κ π :=
  match f.call with
  | .signup _ _ | .login _ _ => match response with
    | .established user token => s.put f.page ((s.store f.page).setSessionToken writes token) (some user)
    | _ => s
  | .logout => s.put f.page ((s.store f.page).clearSessionToken writes) none
  | .me => s.put f.page (s.store f.page) (match response with
    | .account user => some user
    | _ => none)
  | .watches => s

end

variable {s s' : BrowserSys κ π}

/-- Who was signed in was signed in ever after. -/
theorem SignedIn.mono {user : User} {token : String} (h : s.SignedIn user token)
    (hsent : ∀ k f, s.sent k = some f → s'.sent k = some f)
    (hcalls : ∀ k outcome, (s.api.auth.calls k).pc = .done outcome → (s'.api.auth.calls k).pc = .done outcome) :
    s'.SignedIn user token := by
  obtain ⟨k, f, hk, hcall, hpc⟩ := h
  exact ⟨k, f, hsent k f hk, hcall, hcalls k _ hpc⟩

section Response

variable [DecidableEq π]

/-! ### What a response does -/

/-- A page keeps the tokens of its new store. -/
theorem keeps_put {page : π} {w : TokenStore} {user : Option User} {token : String}
    (h : (s.put page w user).Keeps token) : s.Keeps token ∨ w.Has token := by
  rcases h with ⟨p, hstored | hmemory⟩ | hsent
  · exact .inr (.inl hstored)
  · by_cases hp : p = page
    · subst hp
      simp only [store, put, Function.update_self] at hmemory
      exact .inr (.inr hmemory)
    · simp only [store, put, Function.update_of_ne hp] at hmemory
      exact .inl (.inl ⟨p, .inr hmemory⟩)
  · exact .inl (.inr hsent)

/-- A page shows its new account. -/
theorem shown_put {page p : π} {w : TokenStore} {user : Option User} {u : User}
    (h : ((s.put page w user).pages p).user = some u) : (s.pages p).user = some u ∨ user = some u := by
  by_cases hp : p = page
  · subst hp
    simp only [put, Function.update_self] at h
    exact .inr h
  · simp only [put, Function.update_of_ne hp] at h
    exact .inl h

/-- What is rejected is forgotten, and nothing else changes. -/
theorem keeps_reject {f : Sent π} {response : ApiResponse} {writes : Bool} {token : String}
    (h : (s.reject f response writes).Keeps token) : s.Keeps token := by
  unfold reject at h
  split_ifs at h
  · exact (keeps_put h).elim id fun hw => .inl ⟨f.page, TokenStore.has_clear hw⟩
  · exact h

theorem shown_reject {f : Sent π} {response : ApiResponse} {writes : Bool} {page : π} {u : User}
    (h : ((s.reject f response writes).pages page).user = some u) : ∃ p, (s.pages p).user = some u := by
  unfold reject at h
  split_ifs at h
  · exact (shown_put h).elim (fun hold => ⟨_, hold⟩) fun hu => ⟨_, hu⟩
  · exact ⟨_, h⟩

/-- What its caller makes of a response: a new session; or no other token, and the account of the response or
nobody's. -/
theorem take_cases (f : Sent π) (response : ApiResponse) (writes : Bool) :
    (∃ user token, response = .established user token ∧
        s.take f response writes = s.put f.page ((s.store f.page).setSessionToken writes token) (some user)) ∨
      s.take f response writes = s ∨
      ∃ w user, s.take f response writes = s.put f.page w user ∧ (∀ token, w.Has token → (s.store f.page).Has token) ∧
        ∀ u ∈ user, response = .account u := by
  have hestablish : ∀ t : BrowserSys κ π, t = (match response with
      | .established user token => s.put f.page ((s.store f.page).setSessionToken writes token) (some user)
      | _ => s) →
      (∃ user token, response = .established user token ∧
        t = s.put f.page ((s.store f.page).setSessionToken writes token) (some user)) ∨ t = s := by
    rintro t rfl
    cases response with
    | established user token => exact .inl ⟨user, token, rfl, rfl⟩
    | _ => exact .inr rfl
  unfold take
  cases f.call with
  | signup email password | login email password => exact (hestablish _ rfl).imp id .inl
  | logout => exact .inr (.inr ⟨_, none, rfl, fun token => TokenStore.has_clear, by simp⟩)
  | watches => exact .inr (.inl rfl)
  | me =>
    refine .inr (.inr ⟨_, _, rfl, fun token => id, fun u hu => ?_⟩)
    cases response with
    | account user =>
      obtain rfl := Option.some.inj hu
      rfl
    | _ => contradiction

/-- The tokens after a response is taken: those from before, and one that is handed out with it. -/
theorem keeps_take {f : Sent π} {response : ApiResponse} {writes : Bool} {token : String}
    (h : (s.take f response writes).Keeps token) : s.Keeps token ∨ ∃ user, response = .established user token := by
  rcases take_cases (s := s) f response writes with ⟨user, t, hresponse, htake⟩ | htake | ⟨w, user, htake, hhas, -⟩
  · rw [htake] at h
    rcases keeps_put h with hold | hw
    · exact .inl hold
    · rcases TokenStore.has_set hw with hw | rfl
      · exact .inl (.inl ⟨f.page, hw⟩)
      · exact .inr ⟨user, hresponse⟩
  · rw [htake] at h
    exact .inl h
  · rw [htake] at h
    exact .inl ((keeps_put h).elim id fun hw => .inl ⟨f.page, hhas token hw⟩)

/-- The accounts that are shown after a response is taken: those from before, and one that comes with it. -/
theorem shown_take {f : Sent π} {response : ApiResponse} {writes : Bool} {page : π} {u : User}
    (h : ((s.take f response writes).pages page).user = some u) :
    (∃ p, (s.pages p).user = some u) ∨ (∃ token, response = .established u token) ∨ response = .account u := by
  rcases take_cases (s := s) f response writes with ⟨user, t, hresponse, htake⟩ | htake | ⟨w, user, htake, -, huser⟩
  · rw [htake] at h
    rcases shown_put h with hold | hu
    · exact .inl ⟨_, hold⟩
    · rw [Option.some.inj hu] at hresponse
      exact .inr (.inl ⟨t, hresponse⟩)
  · rw [htake] at h
    exact .inl ⟨_, h⟩
  · rw [htake] at h
    rcases shown_put h with hold | hu
    · exact .inl ⟨_, hold⟩
    · exact .inr (.inr (huser u hu))

/-- What a response leaves alone: the service, what was sent and received, and the pages' client ids. -/
structure Frame (s t : BrowserSys κ π) : Prop where
  api : t.api = s.api
  sent : t.sent = s.sent
  received : t.received = s.received
  clientId : t.storage.clientId = s.storage.clientId
  pages : ∀ p, (t.pages p).cached = (s.pages p).cached ∧ (t.pages p).sending = (s.pages p).sending

omit [DecidableEq π] in
theorem Frame.refl (s : BrowserSys κ π) : Frame s s := ⟨rfl, rfl, rfl, rfl, fun _ => ⟨rfl, rfl⟩⟩

theorem put_frame (page : π) (w : TokenStore) (user : Option User) : Frame s (s.put page w user) := by
  refine ⟨rfl, rfl, rfl, rfl, fun p => ?_⟩
  by_cases hp : p = page
  · subst hp
    simp only [put, Function.update_self, and_self]
  · simp only [put, Function.update_of_ne hp, and_self]

theorem reject_frame (f : Sent π) (response : ApiResponse) (writes : Bool) : Frame s (s.reject f response writes) := by
  unfold reject
  split_ifs
  · exact put_frame _ _ _
  · exact .refl s

theorem take_frame (f : Sent π) (response : ApiResponse) (writes : Bool) : Frame s (s.take f response writes) := by
  rcases take_cases (s := s) f response writes with ⟨user, t, -, htake⟩ | htake | ⟨w, user, htake, -, -⟩
  · rw [htake]
    exact put_frame _ _ _
  · rw [htake]
    exact .refl s
  · rw [htake]
    exact put_frame _ _ _

omit [DecidableEq π] in
/-- A page is as sound as its client id and the request that it is about to send. -/
theorem Frame.sound {s t : BrowserSys κ π} (h : Frame s t) {p : π} (hsound : (s.pages p).Sound) :
    (t.pages p).Sound := by
  obtain ⟨hcached, hsending⟩ := h.pages p
  obtain ⟨hc, hi, hp, ha⟩ := hsound
  unfold Page.identifying at hi
  unfold Page.persisting at hp
  unfold Page.authorizing at ha
  refine ⟨?_, ?_, ?_, ?_⟩
  · rw [hcached]
    exact hc
  · unfold Page.identifying
    rw [hcached, hsending]
    exact hi
  · unfold Page.persisting
    rw [hcached, hsending]
    exact hp
  · unfold Page.authorizing
    rw [hcached, hsending]
    exact ha

end Response

/-! ### Steps -/

variable [DecidableEq κ] [DecidableEq π] (lower : String → String) (settings : AccountSettings)
  (hasher : PasswordHasher)

/-- Where a step can be taken. Tokens are url-safe, a page asks once who it is, and nothing else happens in a page that
is about to send a request. -/
def allowed (s : BrowserSys κ π) : BrowserStep κ π → Prop
  | .api i => (drawMachine lower settings hasher).allowed s.api i ∧
    ∀ token ∈ i.draws, token ≠ "" ∧ token.toList.all isClientIdChar = true
  | .hydrate page _ => (s.pages page).hydrated = false ∧ (s.pages page).sending = none
  | .prepare page call => call ≠ .me ∧ (s.pages page).sending = none
  | .getItem page _ fresh => (s.pages page).identifying.isSome = true ∧ GeneratesId fresh
  | .setItem page _ fresh => (s.pages page).persisting.isSome = true ∧ GeneratesId fresh
  | .fetch k page _ => (s.pages page).authorizing.isSome = true ∧ s.sent k = none ∧ (s.api.auth.calls k).pc = .idle
  | .receive k response _ => s.received k = none ∧ ∃ f ∈ s.sent k, (s.pages f.page).sending = none ∧
    f.call.answers (s.api.auth.calls k).pc response = true
  | .settle k _ => k ∉ s.settled ∧ (s.received k).isSome = true ∧ ∃ f ∈ s.sent k, (s.pages f.page).sending = none

instance (s : BrowserSys κ π) : DecidablePred (allowed lower settings hasher s)
  | .api i => inferInstanceAs (Decidable (_ ∧ ∀ token ∈ i.draws, _))
  | .hydrate _ _ | .prepare _ _ | .getItem _ _ _ | .setItem _ _ _ => inferInstanceAs (Decidable (_ ∧ _))
  | .fetch _ _ _ => inferInstanceAs (Decidable (_ ∧ _ ∧ _))
  | .receive k response _ => inferInstanceAs (Decidable (s.received k = none ∧
    ∃ f ∈ s.sent k, (s.pages f.page).sending = none ∧ f.call.answers (s.api.auth.calls k).pc response = true))
  | .settle k _ => inferInstanceAs (Decidable (k ∉ s.settled ∧ (s.received k).isSome = true ∧
    ∃ f ∈ s.sent k, (s.pages f.page).sending = none))

/-- The request that a page sends. -/
def requestOf (s : BrowserSys κ π) (page : π) (call : ApiCall) (clientId : String) (reads : Bool) : Sent π :=
  ⟨page, call, s.presents page call reads, clientId⟩

/-- One step. -/
def exec : BrowserStep κ π → BrowserSys κ π → BrowserSys κ π
  | .api i, s => { s with api := (drawMachine lower settings hasher).exec i s.api }
  | .hydrate page reads, s =>
    let p := { s.pages page with hydrated := true }
    s.withPage page s.storage.clientId
      (if (s.presents page .me reads).isSome then p.prepare .me else p)
  | .prepare page call, s => s.withPage page s.storage.clientId ((s.pages page).prepare call)
  | .getItem page reads fresh, s => match (s.pages page).identifying with
    | none => s
    | some call =>
      s.withPage page s.storage.clientId ((s.pages page).gotItem reads fresh call s.storage.clientId)
  | .setItem page writes fresh, s => match (s.pages page).persisting with
    | none => s
    | some (call, generated) =>
      let out := (s.pages page).didSetItem writes generated fresh call s.storage.clientId
      s.withPage page out.1 out.2
  | .fetch k page reads, s => match (s.pages page).authorizing with
    | none => s
    | some (call, clientId) =>
      let f := s.requestOf page call clientId reads
      { s.withPage page s.storage.clientId { s.pages page with sending := none } with
        api := (drawMachine lower settings hasher).exec (.start k (f.request lower)) s.api
        sent := Function.update s.sent k (some f) }
  | .receive k response writes, s => match s.sent k with
    | none => s
    | some f =>
      { s.reject f response writes with received := Function.update s.received k (some response) }
  | .settle k writes, s => match s.sent k, s.received k with
    | some f, some response => { s.take f response writes with settled := k :: s.settled }
    | _, _ => s

/-- The browser over the service, from empty tables and an empty store. -/
def machine : Machine (BrowserSys κ π) (BrowserStep κ π) where
  init s := (drawMachine lower settings hasher).init s.api ∧ s.storage = ⟨none, none⟩ ∧
    (∀ page, s.pages page = ⟨none, none, none, false, none⟩) ∧ (∀ k, s.sent k = none) ∧
    (∀ k, s.received k = none) ∧ s.settled = []
  allowed := allowed lower settings hasher
  exec := exec lower settings hasher

/-- Where a step can be taken is computed. -/
instance (s : BrowserSys κ π) (i : BrowserStep κ π) : Decidable ((machine lower settings hasher).allowed s i) :=
  inferInstanceAs (Decidable (allowed lower settings hasher s i))

variable {lower settings hasher}

/-! ### What a step does where it can be taken -/

theorem exec_getItem {s : BrowserSys κ π} {page : π} {call : ApiCall} (hcall : (s.pages page).identifying = some call)
    (reads : Bool) (fresh : String) : exec lower settings hasher (.getItem page reads fresh) s =
      s.withPage page s.storage.clientId ((s.pages page).gotItem reads fresh call s.storage.clientId) := by
  simp only [exec, hcall]

theorem exec_setItem {s : BrowserSys κ π} {page : π} {call : ApiCall} {generated : String}
    (hcall : (s.pages page).persisting = some (call, generated)) (writes : Bool) (fresh : String) :
    exec lower settings hasher (.setItem page writes fresh) s =
      s.withPage page ((s.pages page).didSetItem writes generated fresh call s.storage.clientId).1
        ((s.pages page).didSetItem writes generated fresh call s.storage.clientId).2 := by
  simp only [exec, hcall]

theorem exec_fetch {s : BrowserSys κ π} {page : π} {call : ApiCall} {clientId : String}
    (hcall : (s.pages page).authorizing = some (call, clientId)) (k : κ) (reads : Bool) :
    exec lower settings hasher (.fetch k page reads) s =
      { s.withPage page s.storage.clientId { s.pages page with sending := none } with
        api := (drawMachine lower settings hasher).exec
          (.start k ((s.requestOf page call clientId reads).request lower)) s.api
        sent := Function.update s.sent k (some (s.requestOf page call clientId reads)) } := by
  simp only [exec, hcall]

theorem exec_receive {s : BrowserSys κ π} {k : κ} {f : Sent π} (hk : s.sent k = some f) (response : ApiResponse)
    (writes : Bool) : exec lower settings hasher (.receive k response writes) s =
      { s.reject f response writes with received := Function.update s.received k (some response) } := by
  simp only [exec, hk]

theorem exec_settle {s : BrowserSys κ π} {k : κ} {f : Sent π} {response : ApiResponse} (hk : s.sent k = some f)
    (hreceived : s.received k = some response) (writes : Bool) : exec lower settings hasher (.settle k writes) s =
      { s.take f response writes with settled := k :: s.settled } := by
  simp only [exec, hk, hreceived]

/-! ### The invariant -/

/-- The invariant: the tokens that the browser keeps, and the accounts that its pages show, are those that it was
signed in to, and a page has one client id. -/
structure Inv (lower : String → String) (settings : AccountSettings) (hasher : PasswordHasher)
    (s : BrowserSys κ π) : Prop where
  reach : (drawMachine lower settings hasher).Reach s.api
  safe : ∀ token ∈ s.api.drawn, token ≠ "" ∧ token.toList.all isClientIdChar = true
  asked : ∀ k f, s.sent k = some f → started k (f.request lower) ∈ s.api.auth.journal
  /-- A token that a request presents was handed out before. -/
  handed : ∀ k f token, s.sent k = some f → f.token = some token → ∃ newer older k₀ session,
    s.api.auth.journal = newer ++ started k (f.request lower) :: older ∧ opened k₀ token session ∈ older
  keeps : ∀ token, s.Keeps token → ∃ user, s.SignedIn user token
  shown : LowersBearer lower → CollisionFree s.api.auth.journal → ∀ page user, (s.pages page).user = some user →
    ∃ token, s.SignedIn user token
  established : ∀ k user token, s.received k = some (.established user token) → s.SignedIn user token
  told : LowersBearer lower → CollisionFree s.api.auth.journal → ∀ k user, s.received k = some (.account user) →
    ∃ token, s.SignedIn user token
  stored : ∀ id ∈ s.storage.clientId, IsClientId id
  pages : ∀ page, (s.pages page).Sound
  oneId : ∀ k f, s.sent k = some f → IsClientId f.clientId ∧ (s.pages f.page).cached = some f.clientId

section

omit [DecidableEq π]

/-- A token of the browser is one of the sessions of the service, and the API reads it as it is. -/
theorem Inv.readable (h : s.Inv lower settings hasher) (hlower : LowersBearer lower) {token : String}
    (hkeeps : s.Keeps token) : ∃ k₀ session, opened k₀ token session ∈ s.api.auth.journal ∧
      bearerToken lower (some (authorizationOf token)) = some token := by
  obtain ⟨user, k, f, -, -, hsigned⟩ := h.keeps token hkeeps
  have hinv := DrawSys.inv h.reach
  obtain ⟨session, hopened⟩ := hinv.opened_of_signedIn hsigned
  obtain ⟨hne, hsafe⟩ := h.safe token (hinv.drawn k token (.inr ⟨session, hopened⟩))
  exact ⟨k, session, hopened, bearerToken_authorizationOf hlower hne hsafe⟩

/-- A request that the API takes for an account is one that presents its token. -/
theorem Inv.request_of_resolved (h : s.Inv lower settings hasher) (hlower : LowersBearer lower) {k : κ} {f : Sent π}
    {user : User} (hsent : s.sent k = some f) (hpc : (s.api.auth.calls k).pc = .done (.resolved (some user))) :
    ∃ token, f.token = some token ∧ f.request lower = .authenticate (some token) := by
  have hfollows := DrawSys.follows h.reach (h.asked k f hsent)
  have hbearer : f.request lower = .authenticate (bearerToken lower (f.token.map authorizationOf)) := by
    revert hfollows
    unfold Sent.request ApiCall.request
    split
    · simp [AuthRequest.Follows, hpc, AuthPc.signs]
    · simp [AuthRequest.Follows, hpc, AuthPc.signs]
    · split
      · simp [AuthRequest.Follows, hpc]
      · simp [AuthRequest.Follows, hpc]
    · exact fun _ => rfl
    · exact fun _ => rfl
  cases htoken : f.token with
  | none =>
    rw [hbearer, htoken] at hfollows
    have hnobody : (s.api.auth.calls k).pc = .done (.resolved none) := hfollows
    rw [hpc] at hnobody
    simp at hnobody
  | some token =>
    obtain ⟨-, -, -, hread⟩ := h.readable hlower (.inr ⟨k, f, hsent, htoken⟩)
    refine ⟨token, rfl, ?_⟩
    rw [hbearer, htoken, Option.map_some, hread]

/-- An account for which the API takes a request of the browser is one that it was signed in to, with the token that
the request presents. -/
theorem Inv.acts (h : s.Inv lower settings hasher) (hlower : LowersBearer lower)
    (hfree : CollisionFree s.api.auth.journal) {k : κ} {f : Sent π} {user : User} (hsent : s.sent k = some f)
    (hpc : (s.api.auth.calls k).pc = .done (.resolved (some user))) :
    ∃ token, f.token = some token ∧ s.SignedIn user token := by
  obtain ⟨token, htoken, hrequest⟩ := h.request_of_resolved hlower hsent hpc
  obtain ⟨user', k', f', hsent', hcall', hsigned⟩ := h.keeps token (.inr ⟨k, f, hsent, htoken⟩)
  have hasked := h.asked k f hsent
  rw [hrequest] at hasked
  obtain ⟨now, hanswered⟩ := DrawSys.answered_of_resolved h.reach hasked hpc
  obtain rfl := (DrawSys.inv h.reach).resolved_as_signedIn hfree hanswered hsigned
  exact ⟨token, htoken, k', f', hsent', hcall', hsigned⟩

/-- The browser knows what it is told by the service. -/
theorem Inv.api (h : s.Inv lower settings hasher) {i : AuthStep κ}
    (ha : (drawMachine lower settings hasher).allowed s.api i)
    (hsafe : ∀ token ∈ i.draws, token ≠ "" ∧ token.toList.all isClientIdChar = true) :
    Inv lower settings hasher { s with api := (drawMachine lower settings hasher).exec i s.api } := by
  have hinv := DrawSys.inv h.reach
  obtain ⟨events, hjournal⟩ :
      ∃ events, ((drawMachine lower settings hasher).exec i s.api).auth.journal = events ++ s.api.auth.journal :=
    AuthSys.exec_journal lower settings hasher i s.api.auth
  have hmono : ∀ {user token}, s.SignedIn user token →
      SignedIn { s with api := (drawMachine lower settings hasher).exec i s.api } user token := fun hsigned =>
    hsigned.mono (fun _ _ => id) fun _ _ hdone => hinv.done_exec ha hdone
  refine ⟨h.reach.step i ha, fun token htoken => ?_, fun k f hk => ?_, fun k f token hk hf => ?_,
    fun token hkeeps => ?_, fun hlower hfree page user huser => ?_,
    fun k user token hk => hmono (h.established k user token hk), fun hlower hfree k user hk => ?_, h.stored, h.pages,
    h.oneId⟩
  · rcases List.mem_append.mp htoken with hnew | hold
    · exact hsafe token (Option.mem_toList.mp hnew)
    · exact h.safe token hold
  · rw [hjournal]
    exact List.mem_append_right _ (h.asked k f hk)
  · obtain ⟨newer, older, k₀, session, hsplit, hopened⟩ := h.handed k f token hk hf
    refine ⟨events ++ newer, older, k₀, session, ?_, hopened⟩
    rw [hjournal, hsplit, List.append_assoc]
  · obtain ⟨user, hsigned⟩ := h.keeps token hkeeps
    exact ⟨user, hmono hsigned⟩
  · rw [hjournal] at hfree
    obtain ⟨token, hsigned⟩ := h.shown hlower hfree.of_append page user huser
    exact ⟨token, hmono hsigned⟩
  · rw [hjournal] at hfree
    obtain ⟨token, hsigned⟩ := h.told hlower hfree.of_append k user hk
    exact ⟨token, hmono hsigned⟩

end

omit [DecidableEq κ] in
theorem withPage_self (s : BrowserSys κ π) (page : π) (clientId : Option String) (p : Page) :
    (s.withPage page clientId p).pages page = p := Function.update_self _ _ _

omit [DecidableEq κ] in
theorem withPage_of_ne (s : BrowserSys κ π) {page q : π} (hq : q ≠ page) (clientId : Option String) (p : Page) :
    (s.withPage page clientId p).pages q = s.pages q := Function.update_of_ne hq _ _

omit [DecidableEq κ] in
/-- A page after it did something about its client id. -/
theorem withPage_pages {s : BrowserSys κ π} {page : π} (clientId : Option String) {p : Page}
    (hmemory : p.memoryToken = (s.pages page).memoryToken) (huser : p.user = (s.pages page).user) (q : π) :
    ((s.withPage page clientId p).pages q).memoryToken = (s.pages q).memoryToken ∧
      ((s.withPage page clientId p).pages q).user = (s.pages q).user := by
  by_cases hq : q = page
  · rw [hq, withPage_self]
    exact ⟨hmemory, huser⟩
  · rw [withPage_of_ne s hq]
    exact ⟨rfl, rfl⟩

/-- A page does something about its client id. -/
theorem Inv.withPage (h : s.Inv lower settings hasher) {page : π} {clientId : Option String} {p : Page}
    (hframe : p.memoryToken = (s.pages page).memoryToken ∧ p.user = (s.pages page).user)
    (hcached : ∀ id ∈ (s.pages page).cached, p.cached = some id) (hstored : ∀ id ∈ clientId, IsClientId id)
    (hsound : p.Sound) : (s.withPage page clientId p).Inv lower settings hasher := by
  -- Neither the token of a page nor its account changes.
  have hpages := withPage_pages clientId hframe.1 hframe.2
  refine ⟨h.reach, h.safe, h.asked, h.handed, fun token hkeeps => ?_, fun hlower hfree q user huser => ?_,
    h.established, h.told, hstored, fun q => ?_, fun k f hk => ?_⟩
  · refine h.keeps token (hkeeps.imp ?_ id)
    rintro ⟨q, hhas⟩
    refine ⟨q, hhas.imp id fun hmemory => ?_⟩
    exact (hpages q).1.symm.trans hmemory
  · exact h.shown hlower hfree q user ((hpages q).2.symm.trans huser)
  · by_cases hq : q = page
    · rw [hq, withPage_self]
      exact hsound
    · rw [withPage_of_ne s hq]
      exact h.pages q
  · obtain ⟨hid, hf⟩ := h.oneId k f hk
    refine ⟨hid, ?_⟩
    by_cases hq : f.page = page
    · rw [hq, withPage_self]
      exact hcached _ (hq ▸ hf)
    · rw [withPage_of_ne s hq]
      exact hf

/-- A request is on its way. -/
theorem Inv.fetch (h : s.Inv lower settings hasher) {k : κ} {page : π} {reads : Bool}
    (ha : allowed lower settings hasher s (.fetch k page reads)) :
    (exec lower settings hasher (.fetch k page reads) s).Inv lower settings hasher := by
  obtain ⟨hauthorizing, hunsent, hidle⟩ := ha
  obtain ⟨⟨call, clientId⟩, hauthorizing⟩ := Option.isSome_iff_exists.mp hauthorizing
  have hpage := h.pages page
  have hcached := hpage.authorize call clientId hauthorizing
  have hsound : Page.Sound { s.pages page with sending := none } :=
    ⟨hpage.cached, by simp [Page.identifying], by simp [Page.persisting], by simp [Page.authorizing]⟩
  have hstart : (drawMachine lower settings hasher).allowed s.api
      (.start k ((s.requestOf page call clientId reads).request lower)) :=
    ⟨hidle, fun _ hdraw => by contradiction⟩
  have hnext := (h.withPage (p := { s.pages page with sending := none }) ⟨rfl, rfl⟩ (fun _ => id) h.stored hsound).api
    hstart fun _ hdraw => by contradiction
  rw [exec_fetch hauthorizing]
  set t := s.withPage page s.storage.clientId { s.pages page with sending := none }
  have hne : ∀ k' f, s.sent k' = some f → k' ≠ k := by
    rintro k' f hk' rfl
    rw [hunsent] at hk'
    contradiction
  -- What is sent is the request, or was sent before.
  have hcases : ∀ {k' f}, Function.update s.sent k (some (s.requestOf page call clientId reads)) k' = some f →
      k' = k ∧ f = s.requestOf page call clientId reads ∨ s.sent k' = some f := by
    intro k' f hk'
    by_cases hkk : k' = k
    · rw [hkk, Function.update_self] at hk'
      exact .inl ⟨hkk, (Option.some.inj hk').symm⟩
    · rw [Function.update_of_ne hkk] at hk'
      exact .inr hk'
  have hmono : ∀ {user token}, SignedIn { t with
        api := (drawMachine lower settings hasher).exec
          (.start k ((s.requestOf page call clientId reads).request lower)) s.api } user token →
      SignedIn { t with
        api := (drawMachine lower settings hasher).exec
          (.start k ((s.requestOf page call clientId reads).request lower)) s.api
        sent := Function.update s.sent k (some (s.requestOf page call clientId reads)) } user token := by
    intro user token hsigned
    refine hsigned.mono (fun k' f hk' => ?_) fun _ _ => id
    exact (Function.update_of_ne (hne k' f hk') _ _).trans hk'
  -- The request presents what the page has stored.
  have hpresents : ∀ token, s.presents page call reads = some token → s.Keeps token := by
    intro token hf
    unfold presents at hf
    split_ifs at hf
    exact .inl ⟨page, TokenStore.has_of_get (Option.eq_some_of_filter_eq_some hf)⟩
  refine ⟨hnext.reach, hnext.safe, fun k' f hk' => ?_, fun k' f token hk' hf => ?_, fun token hkeeps => ?_,
    fun hlower hfree p user huser => ?_, fun k' user token hk' => hmono (hnext.established k' user token hk'),
    fun hlower hfree k' user hk' => ?_, hnext.stored, hnext.pages, fun k' f hk' => ?_⟩
  · rcases hcases hk' with ⟨rfl, rfl⟩ | hold
    · exact List.mem_cons_self
    · exact hnext.asked k' f hold
  · rcases hcases hk' with ⟨rfl, rfl⟩ | hold
    · obtain ⟨user, k₀, f₀, -, -, hsigned⟩ := h.keeps token (hpresents token hf)
      obtain ⟨session, hopened⟩ := (DrawSys.inv h.reach).opened_of_signedIn hsigned
      exact ⟨[], s.api.auth.journal, k₀, session, rfl, hopened⟩
    · exact hnext.handed k' f token hold hf
  · have hold : Keeps { t with
        api := (drawMachine lower settings hasher).exec
          (.start k ((s.requestOf page call clientId reads).request lower)) s.api } token ∨ s.Keeps token := by
      rcases hkeeps with ⟨p, hhas⟩ | ⟨k', f, hk', hf⟩
      · exact .inl (.inl ⟨p, hhas⟩)
      · rcases hcases hk' with ⟨rfl, rfl⟩ | hold
        · exact .inr (hpresents token hf)
        · exact .inl (.inr ⟨k', f, hold, hf⟩)
    rcases hold with hold | hold
    · obtain ⟨user, hsigned⟩ := hnext.keeps token hold
      exact ⟨user, hmono hsigned⟩
    · obtain ⟨user, k₀, f₀, hk₀, hcall₀, hsigned⟩ := h.keeps token hold
      refine ⟨user, hmono ⟨k₀, f₀, hk₀, hcall₀, ?_⟩⟩
      exact (DrawSys.inv h.reach).done_exec hstart hsigned
  · obtain ⟨token, hsigned⟩ := hnext.shown hlower hfree p user huser
    exact ⟨token, hmono hsigned⟩
  · obtain ⟨token, hsigned⟩ := hnext.told hlower hfree k' user hk'
    exact ⟨token, hmono hsigned⟩
  · rcases hcases hk' with ⟨rfl, rfl⟩ | hold
    · refine ⟨hpage.cached _ hcached, ?_⟩
      show (Function.update s.pages page _ page).cached = some clientId
      rw [Function.update_self]
      exact hcached
    · exact hnext.oneId k' f hold

omit [DecidableEq π] in
/-- What holds of a browser after a response has changed its store and its pages. -/
theorem Inv.frame (h : s.Inv lower settings hasher) {t : BrowserSys κ π} (hframe : Frame s t)
    (hkeeps : ∀ token, t.Keeps token → s.Keeps token ∨ ∃ user, s.SignedIn user token)
    (hshown : LowersBearer lower → CollisionFree s.api.auth.journal → ∀ page user, (t.pages page).user = some user →
      (∃ p, (s.pages p).user = some user) ∨ ∃ token, s.SignedIn user token) :
    t.Inv lower settings hasher := by
  obtain ⟨hapi, hsent, hreceived, hclientId, hpages⟩ := id hframe
  have hmono : ∀ {user token}, s.SignedIn user token → t.SignedIn user token := by
    intro user token hsigned
    unfold SignedIn
    rwa [hapi, hsent]
  refine ⟨hapi ▸ h.reach, hapi ▸ h.safe, ?_, ?_, fun token hk => ?_, fun hlower hfree page user huser => ?_,
    fun k user token hk => ?_, fun hlower hfree k user hk => ?_, hclientId ▸ h.stored,
    fun page => hframe.sound (h.pages page), fun k f hk => ?_⟩
  · rw [hapi, hsent]
    exact h.asked
  · rw [hapi, hsent]
    exact h.handed
  · obtain ⟨user, hsigned⟩ := (hkeeps token hk).elim (h.keeps token) id
    exact ⟨user, hmono hsigned⟩
  · rw [hapi] at hfree
    obtain ⟨token, hsigned⟩ := (hshown hlower hfree page user huser).elim
      (fun ⟨p, hp⟩ => h.shown hlower hfree p user hp) id
    exact ⟨token, hmono hsigned⟩
  · rw [hreceived] at hk
    exact hmono (h.established k user token hk)
  · rw [hapi] at hfree
    rw [hreceived] at hk
    obtain ⟨token, hsigned⟩ := h.told hlower hfree k user hk
    exact ⟨token, hmono hsigned⟩
  · rw [hsent] at hk
    rw [(hpages f.page).1]
    exact h.oneId k f hk

/-- A response is there. -/
theorem Inv.receive (h : s.Inv lower settings hasher) {k : κ} {response : ApiResponse} {writes : Bool}
    (ha : allowed lower settings hasher s (.receive k response writes)) :
    (exec lower settings hasher (.receive k response writes) s).Inv lower settings hasher := by
  obtain ⟨-, f, hk, -, hanswers⟩ := ha
  have hframe := reject_frame (s := s) f response writes
  have hnext : (s.reject f response writes).Inv lower settings hasher :=
    h.frame hframe (fun token hkeeps => .inl (keeps_reject hkeeps))
      fun _ _ page user huser => .inl (shown_reject huser)
  rw [exec_receive hk]
  -- The response is the new one, or was there before.
  have hreceived : ∀ {k' response'}, Function.update s.received k (some response) k' = some response' →
      k' = k ∧ response' = response ∨ (s.reject f response writes).received k' = some response' := by
    intro k' response' hk'
    by_cases hkk : k' = k
    · rw [hkk, Function.update_self] at hk'
      exact .inl ⟨hkk, (Option.some.inj hk').symm⟩
    · rw [Function.update_of_ne hkk] at hk'
      exact .inr (by rw [hframe.received, hk'])
  refine ⟨hnext.reach, hnext.safe, hnext.asked, hnext.handed, hnext.keeps, hnext.shown,
    fun k' user token hk' => ?_, fun hlower hfree k' user hk' => ?_, hnext.stored, hnext.pages, hnext.oneId⟩
  · rcases hreceived hk' with ⟨rfl, rfl⟩ | hold
    · simp only [ApiCall.answers, Bool.and_eq_true, decide_eq_true_eq] at hanswers
      refine ⟨k', f, ?_, hanswers.1, ?_⟩
      · exact (congrFun hframe.sent k').trans hk
      · show ((s.reject f _ writes).api.auth.calls k').pc = _
        rw [hframe.api]
        exact hanswers.2
    · exact hnext.established k' user token hold
  · rcases hreceived hk' with ⟨rfl, rfl⟩ | hold
    · have hpc : (s.api.auth.calls k').pc = .done (.resolved (some user)) := by
        simp only [ApiCall.answers, Bool.and_eq_true, decide_eq_true_eq] at hanswers
        exact hanswers.2
      have hpc' : ((s.reject f (.account user) writes).api.auth.calls k').pc = .done (.resolved (some user)) := by
        rw [hframe.api]
        exact hpc
      obtain ⟨token, -, hsigned⟩ := hnext.acts hlower hfree ((congrFun hframe.sent k').trans hk) hpc'
      exact ⟨token, hsigned⟩
    · exact hnext.told hlower hfree k' user hold

/-- A response is taken. -/
theorem Inv.settle (h : s.Inv lower settings hasher) {k : κ} {writes : Bool}
    (ha : allowed lower settings hasher s (.settle k writes)) :
    (exec lower settings hasher (.settle k writes) s).Inv lower settings hasher := by
  obtain ⟨-, hreceived, f, hk, -⟩ := ha
  obtain ⟨response, hreceived⟩ := Option.isSome_iff_exists.mp hreceived
  -- What the caller stores or shows came with the response.
  have hnext : (s.take f response writes).Inv lower settings hasher := by
    refine h.frame (take_frame f response writes) (fun token hkeeps => ?_) fun hlower hfree page user huser => ?_
    · rcases keeps_take hkeeps with hold | ⟨user, rfl⟩
      · exact .inl hold
      · exact .inr ⟨user, h.established k user token hreceived⟩
    · rcases shown_take huser with hold | ⟨token, rfl⟩ | rfl
      · exact .inl hold
      · exact .inr ⟨token, h.established k user token hreceived⟩
      · exact .inr (h.told hlower hfree k user hreceived)
  rw [exec_settle hk hreceived]
  exact ⟨hnext.reach, hnext.safe, hnext.asked, hnext.handed, hnext.keeps, hnext.shown, hnext.established, hnext.told,
    hnext.stored, hnext.pages, hnext.oneId⟩

/-- A page begins a request. -/
theorem Inv.begins (h : s.Inv lower settings hasher) (page : π) (call : ApiCall) (hydrated : Bool) :
    (s.withPage page s.storage.clientId (({ s.pages page with hydrated := hydrated } : Page).prepare call)).Inv lower
      settings hasher := by
  have hsound : Page.Sound { s.pages page with hydrated := hydrated } :=
    ⟨(h.pages page).cached, (h.pages page).identify, (h.pages page).persist, (h.pages page).authorize⟩
  exact h.withPage ⟨rfl, rfl⟩ (fun _ => id) h.stored (hsound.prepare call)

/-- A page reads its id. -/
theorem Inv.getItem (h : s.Inv lower settings hasher) {page : π} {reads : Bool} {fresh : String}
    (ha : allowed lower settings hasher s (.getItem page reads fresh)) :
    (exec lower settings hasher (.getItem page reads fresh) s).Inv lower settings hasher := by
  obtain ⟨hidentifying, hfresh⟩ := ha
  obtain ⟨call, hcall⟩ := Option.isSome_iff_exists.mp hidentifying
  have hnone := (h.pages page).identify hidentifying
  rw [exec_getItem hcall]
  refine h.withPage (Page.gotItem_frame reads fresh call s.storage.clientId _) (fun id hid => ?_) h.stored
    ((h.pages page).gotItem hcall h.stored reads hfresh.isClientId)
  rw [hnone] at hid
  contradiction

/-- A page writes its id. -/
theorem Inv.setItem (h : s.Inv lower settings hasher) {page : π} {writes : Bool} {fresh : String}
    (ha : allowed lower settings hasher s (.setItem page writes fresh)) :
    (exec lower settings hasher (.setItem page writes fresh) s).Inv lower settings hasher := by
  obtain ⟨hpersisting, hfresh⟩ := ha
  obtain ⟨⟨call, generated⟩, hcall⟩ := Option.isSome_iff_exists.mp hpersisting
  obtain ⟨hnone, hgenerated⟩ := (h.pages page).persist call generated hcall
  rw [exec_setItem hcall]
  refine h.withPage (Page.didSetItem_frame writes generated fresh call s.storage.clientId _) (fun id hid => ?_)
    (fun id hid => ?_) ((h.pages page).didSetItem hcall writes hfresh.isClientId s.storage.clientId)
  · rw [hnone] at hid
    contradiction
  · unfold Page.didSetItem at hid
    split_ifs at hid
    · obtain rfl := Option.some.inj hid
      exact hgenerated
    · exact h.stored id hid

/-- The invariant holds in every run. -/
theorem inv (h : (machine lower settings hasher).Reach s) : s.Inv lower settings hasher := by
  refine h.invariant (P := fun s => s.Inv lower settings hasher) ?_ fun s i _ hs ha => ?_
  · rintro s ⟨hinit, hstorage, hpages, hsent, hreceived, -⟩
    have hnot : ∀ k f, s.sent k ≠ some f := by
      intro k f hk
      rw [hsent k] at hk
      contradiction
    have hnone : ∀ k response, s.received k ≠ some response := by
      intro k response hk
      rw [hreceived k] at hk
      contradiction
    refine ⟨.init hinit, fun token htoken => ?_, fun k f hk => absurd hk (hnot k f),
      fun k f _ hk _ => absurd hk (hnot k f), fun token hkeeps => ?_, fun _ _ page user huser => ?_,
      fun k user token hk => absurd hk (hnone k _), fun _ _ k user hk => absurd hk (hnone k _), ?_, fun page => ?_,
      fun k f hk => absurd hk (hnot k f)⟩
    · rw [hinit.2] at htoken
      contradiction
    · rcases hkeeps with ⟨page, hstored | hmemory⟩ | ⟨k, f, hk, -⟩
      · simp [store, hstorage] at hstored
      · simp [store, hpages page] at hmemory
      · exact absurd hk (hnot k f)
    · simp [hpages page] at huser
    · simp [hstorage]
    · rw [hpages page]
      exact ⟨by simp, by simp [Page.identifying], by simp [Page.persisting], by simp [Page.authorizing]⟩
  · cases i with
    | api i => exact hs.api ha.1 ha.2
    | hydrate page reads =>
      change (s.withPage page s.storage.clientId (if _ then _ else _)).Inv lower settings hasher
      split_ifs
      · exact hs.begins page .me true
      · exact hs.withPage ⟨rfl, rfl⟩ (fun _ => id) hs.stored
          ⟨(hs.pages page).cached, (hs.pages page).identify, (hs.pages page).persist, (hs.pages page).authorize⟩
    | prepare page call => exact hs.begins page call (s.pages page).hydrated
    | getItem page reads fresh => exact hs.getItem ha
    | setItem page writes fresh => exact hs.setItem ha
    | fetch k page reads => exact hs.fetch ha
    | receive k response writes => exact hs.receive ha
    | settle k writes => exact hs.settle ha

/-- The service takes the steps of the browser. -/
theorem later_api (h : (machine lower settings hasher).Reach s) (hlater : (machine lower settings hasher).Later s s') :
    (drawMachine lower settings hasher).Later s.api s'.api := by
  refine Machine.Later.map (f := BrowserSys.api) ?_ h hlater
  intro s i _ ha
  change (drawMachine lower settings hasher).Later s.api (exec lower settings hasher i s).api
  cases i with
  | api i => exact .single ⟨i, ha.1, rfl⟩
  | hydrate page reads | prepare page call => exact .refl
  | getItem page reads fresh =>
    obtain ⟨call, hcall⟩ := Option.isSome_iff_exists.mp ha.1
    rw [exec_getItem hcall]
    exact .refl
  | setItem page writes fresh =>
    obtain ⟨⟨call, generated⟩, hcall⟩ := Option.isSome_iff_exists.mp ha.1
    rw [exec_setItem hcall]
    exact .refl
  | fetch k page reads =>
    obtain ⟨⟨call, clientId⟩, hcall⟩ := Option.isSome_iff_exists.mp ha.1
    rw [exec_fetch hcall]
    exact .single ⟨.start k ((s.requestOf page call clientId reads).request lower),
      ⟨ha.2.2, fun _ hdraw => by contradiction⟩, rfl⟩
  | receive k response writes =>
    obtain ⟨-, f, hk, -⟩ := ha
    rw [exec_receive hk]
    exact (reject_frame f response writes).api ▸ .refl
  | settle k writes =>
    obtain ⟨-, hreceived, f, hk, -⟩ := ha
    obtain ⟨response, hreceived⟩ := Option.isSome_iff_exists.mp hreceived
    rw [exec_settle hk hreceived]
    exact (take_frame f response writes).api ▸ .refl

/-- What a page does once its logout has a response, whichever it is: it shows nobody and keeps no token. -/
theorem logout_clears {k : κ} {writes : Bool} (ha : (machine lower settings hasher).allowed s (.settle k writes))
    {f : Sent π} (hsent : s.sent k = some f) (hcall : f.call = .logout) :
    ((machine lower settings hasher).exec (.settle k writes) s).store f.page =
        (s.store f.page).clearSessionToken writes ∧
      (((machine lower settings hasher).exec (.settle k writes) s).pages f.page).user = none := by
  obtain ⟨-, hreceived, -⟩ := ha
  obtain ⟨response, hreceived⟩ := Option.isSome_iff_exists.mp hreceived
  change (exec lower settings hasher (.settle k writes) s).store f.page = _ ∧
    ((exec lower settings hasher (.settle k writes) s).pages f.page).user = none
  rw [exec_settle hsent hreceived]
  simp only [take, hcall, store, put, Function.update_self, and_self]

/-! ### The results -/

/-- Whose the pages of a browser are: whatever pages are open, whatever calls interleave and fail, and in whatever
order the responses come, every account that a page shows, and every account for which the API takes a request of a
page, is one that the browser was signed in to by a signup or login of its own, with the token that the request
presents. -/
theorem browser_signed_in (hlower : LowersBearer lower) (h : (machine lower settings hasher).Reach s)
    (hfree : CollisionFree s.api.auth.journal) :
    (∀ page user, (s.pages page).user = some user → ∃ token, s.SignedIn user token) ∧
      ∀ k f user, s.sent k = some f → (s.api.auth.calls k).pc = .done (.resolved (some user)) →
        ∃ token, f.token = some token ∧ s.SignedIn user token :=
  ⟨(inv h).shown hlower hfree, fun _ _ _ hsent hpc => (inv h).acts hlower hfree hsent hpc⟩

/-- Two ids that pages may generate. -/
def sampleId : String := "0123456789abcdef0123456789ABCDEF"
def sampleOtherId : String := "a0b1c2d3-0000-4000-8000-0123456789ab"

/-- A signup on one page, whose account another page then shows. -/
def sampleBrowserRun : List (BrowserStep ℕ (Fin 2)) :=
  [.prepare 0 (.signup " ada@dibs.ca " "correct horse"), .getItem 0 true sampleId, .setItem 0 true sampleOtherId,
    .fetch 0 0 true, .api (.execute 0 "salt" "" 0), .api (.resume 0 "a"), .api (.execute 0 "" "ada" 0),
    .api (.resume 0 "token"), .api (.execute 0 "" "" 0), .api (.resume 0 "b"),
    .receive 0 (.established ⟨"ada", "ada@dibs.ca", 0⟩ "token") true, .settle 0 true, .hydrate 1 true,
    .getItem 1 true sampleOtherId, .fetch 1 1 true, .api (.execute 1 "" "" 0), .api (.resume 1 "c"),
    .api (.execute 1 "" "" 0), .api (.resume 1 "d"), .receive 1 (.account ⟨"ada", "ada@dibs.ca", 0⟩) true,
    .settle 1 true]

/-- The logout of that page. -/
def sampleLogoutRun : List (BrowserStep ℕ (Fin 2)) :=
  [.prepare 1 .logout, .fetch 2 1 true, .api (.execute 2 "" "" 0), .api (.resume 2 "e")]

/-- Its response, and a request of the first page, which still has the token. -/
def sampleStaleRun : List (BrowserStep ℕ (Fin 2)) :=
  [.receive 2 .ok true, .settle 2 true, .prepare 0 .watches, .fetch 3 0 true, .api (.execute 3 "" "" 0),
    .api (.resume 3 "f")]

/-- The machine of the sample. -/
abbrev sampleMachine : Machine (BrowserSys ℕ (Fin 2)) (BrowserStep ℕ (Fin 2)) :=
  machine String.toLower AuthSys.sampleAccountSettings AuthSys.sampleHasher

/-- A browser that was never used. -/
def sampleFresh : BrowserSys ℕ (Fin 2) :=
  ⟨⟨AuthSys.sampleAuth, []⟩, ⟨none, none⟩, fun _ => ⟨none, none, none, false, none⟩, fun _ => none, fun _ => none, []⟩

/-- The browser with its account, after the logout, and after the request that comes too late. -/
def sampleShown : BrowserSys ℕ (Fin 2) := sampleMachine.final sampleFresh sampleBrowserRun
def sampleOut : BrowserSys ℕ (Fin 2) := sampleMachine.final sampleShown sampleLogoutRun
def sampleStale : BrowserSys ℕ (Fin 2) := sampleMachine.final sampleOut sampleStaleRun

theorem sampleFresh_init : sampleMachine.init sampleFresh :=
  ⟨⟨⟨rfl, rfl, fun _ => rfl⟩, rfl⟩, rfl, fun _ => rfl, fun _ => rfl, fun _ => rfl, rfl⟩

theorem sampleShown_reach : sampleMachine.Reach sampleShown :=
  (Machine.Reach.init sampleFresh_init).final (by decide +kernel)

/-- The lower case of `Bearer ` is `bearer `. -/
theorem lowersBearer_toLower : LowersBearer String.toLower := by
  intro s
  change "bearer ".toList.isPrefixOf (("Bearer " ++ s).map Char.toLower).toList = true
  rw [String.toList_map, String.toList_append, List.map_append]
  rw [show "Bearer ".toList.map Char.toLower = "bearer ".toList by decide]
  exact List.isPrefixOf_iff_prefix.mpr (List.prefix_append _ _)

theorem browser_signed_in_sampleShown :
    (∀ page user, (sampleShown.pages page).user = some user → ∃ token, sampleShown.SignedIn user token) ∧
      ∀ k f user, sampleShown.sent k = some f → (sampleShown.api.auth.calls k).pc = .done (.resolved (some user)) →
        ∃ token, f.token = some token ∧ sampleShown.SignedIn user token :=
  browser_signed_in lowersBearer_toLower sampleShown_reach
    (DrawSys.collisionFree_of_tokens (by decide +kernel))

/-- A logout at a browser is final for all its pages: once the service has logged out the token of a request, no
request that presents it and is made after is taken for an account, whatever pages still keep the token. -/
theorem browser_logged_out (hlower : LowersBearer lower) (h : (machine lower settings hasher).Reach s) {k : κ}
    {f : Sent π} {token : String} (hsent : s.sent k = some f) (hcall : f.call = .logout)
    (htoken : f.token = some token) (hdone : (s.api.auth.calls k).pc = .done .loggedOut)
    (hlater : (machine lower settings hasher).Later s s') (hfree : CollisionFree s'.api.auth.journal) :
    ∀ k' f' user, s'.sent k' = some f' → (s.api.auth.calls k').pc = .idle → f'.token = some token →
      (s'.api.auth.calls k').pc ≠ .done (.resolved (some user)) := by
  intro k' f' user hsent' hidle htoken' hresolved
  have hinv := inv h
  have hinv' := inv (h.later hlater)
  obtain ⟨newer, older, k₀, session, hsplit, hopened⟩ := hinv.handed k f token hsent htoken
  obtain ⟨-, -, -, hread⟩ := hinv.readable hlower (.inr ⟨k, f, hsent, htoken⟩)
  have hrequest : f.request lower = .logout token := by
    simp only [Sent.request, ApiCall.request, hcall, htoken, Option.map_some, hread]
  rw [hrequest] at hsplit
  have hover := DrawSys.over_of_loggedOut hinv.reach hsplit hopened hdone
  obtain ⟨t, ht, hrequest'⟩ := hinv'.request_of_resolved hlower hsent' hresolved
  obtain rfl : t = token := Option.some.inj (ht.symm.trans htoken')
  have hasked := hinv'.asked k' f' hsent'
  rw [hrequest'] at hasked
  have hnobody := DrawSys.nobody_later hinv.reach (later_api h hlater) hover hfree hidle hasked hresolved
  contradiction

theorem browser_logged_out_sampleStale :
    (sampleStale.api.auth.calls 3).pc ≠ .done (.resolved (some ⟨"ada", "ada@dibs.ca", 0⟩)) := by
  have hreach : sampleMachine.Reach sampleOut := sampleShown_reach.final (by decide +kernel)
  have hsent : sampleOut.sent 2 = some ⟨1, .logout, some "token", sampleId⟩ := by decide +kernel
  have hlater : sampleMachine.Later sampleOut sampleStale := .of_runs (by decide +kernel)
  have hstale : sampleStale.sent 3 = some ⟨0, .watches, some "token", sampleId⟩ := by decide +kernel
  exact browser_logged_out lowersBearer_toLower hreach hsent rfl rfl (by decide +kernel) hlater
    (DrawSys.collisionFree_of_tokens (by decide +kernel)) 3 _ _ hstale (by decide +kernel) rfl

/-- The client id of a page: all its requests carry one, whatever `localStorage` can do, and the API takes it as it
is. -/
theorem page_client_id (h : (machine lower settings hasher).Reach s) :
    (∀ k k' f f', s.sent k = some f → s.sent k' = some f' → f.page = f'.page → f.clientId = f'.clientId) ∧
      ∀ k f, s.sent k = some f → extractClientId (some f.clientId) = some f.clientId := by
  have hinv := inv h
  constructor
  · intro k k' f f' hk hk' hpage
    have hcached := (hinv.oneId k f hk).2
    rw [hpage, (hinv.oneId k' f' hk').2] at hcached
    exact (Option.some.inj hcached).symm
  · intro k f hk
    exact extractClientId_of_isClientId (hinv.oneId k f hk).1

theorem page_client_id_sampleShown :
    (∀ k k' f f', sampleShown.sent k = some f → sampleShown.sent k' = some f' → f.page = f'.page →
        f.clientId = f'.clientId) ∧
      ∀ k f, sampleShown.sent k = some f → extractClientId (some f.clientId) = some f.clientId :=
  page_client_id sampleShown_reach

/-- A step at which `localStorage` works for the client ids, and no page reads its id while another is about to write
the one that it has generated. -/
def OneAtATime (s : BrowserSys κ π) : BrowserStep κ π → Prop
  | .getItem _ reads _ => reads = true ∧ ∀ page, (s.pages page).persisting = none
  | .setItem _ writes _ => writes = true
  | _ => True

instance [Fintype π] (s : BrowserSys κ π) : DecidablePred s.OneAtATime
  | .getItem _ _ _ => inferInstanceAs (Decidable (_ ∧ ∀ page, (s.pages page).persisting = none))
  | .setItem _ writes _ => inferInstanceAs (Decidable (writes = true))
  | .api _ | .hydrate _ _ | .prepare _ _ | .fetch _ _ _ | .receive _ _ _ | .settle _ _ =>
    inferInstanceAs (Decidable True)

/-- Where `localStorage` works and pages look for their ids one at a time: an id that a page has is the stored one,
and while a page is about to store one there is none, and no other page is. -/
structure Shared (s : BrowserSys κ π) : Prop where
  cached : ∀ page, ∀ id ∈ (s.pages page).cached, s.storage.clientId = some id
  persisting : ∀ page, (s.pages page).persisting ≠ none → s.storage.clientId = none
  one : ∀ page page', (s.pages page).persisting ≠ none → (s.pages page').persisting ≠ none → page = page'

omit [DecidableEq κ] [DecidableEq π] in
/-- What changes neither the stored id nor the pages' ids and writes. -/
theorem Shared.of_same (h : s.Shared) (hstored : s'.storage.clientId = s.storage.clientId)
    (hcached : ∀ page, (s'.pages page).cached = (s.pages page).cached)
    (hpersisting : ∀ page, (s'.pages page).persisting ≠ none → (s.pages page).persisting ≠ none) : s'.Shared := by
  refine ⟨fun page id hid => ?_, fun page hpage => ?_, fun page page' hpage hpage' => ?_⟩
  · rw [hcached page] at hid
    rw [hstored]
    exact h.cached page id hid
  · rw [hstored]
    exact h.persisting page (hpersisting page hpage)
  · exact h.one page page' (hpersisting page hpage) (hpersisting page' hpage')

omit [DecidableEq κ] in
/-- A page that has its id from the store, or stored it, while no other page is about to store one. -/
theorem Shared.identified {page : π} {call : ApiCall} {id : String}
    (hothers : ∀ q, q ≠ page → (s.pages q).persisting = none)
    (hcached : ∀ q, ∀ i ∈ (s.pages q).cached, q ≠ page → i = id) :
    (s.withPage page (some id) ((s.pages page).identified call id)).Shared := by
  refine ⟨fun q i hi => ?_, fun q hq => ?_, fun q q' hq hq' => ?_⟩
  · by_cases hqp : q = page
    · rw [hqp, withPage_self] at hi
      exact hi
    · rw [withPage_of_ne s hqp] at hi
      exact congrArg some (hcached q i hi hqp).symm
  · by_cases hqp : q = page
    · rw [hqp, withPage_self] at hq
      exact absurd rfl hq
    · rw [withPage_of_ne s hqp] at hq
      exact absurd (hothers q hqp) hq
  · by_cases hqp : q = page
    · rw [hqp, withPage_self] at hq
      exact absurd rfl hq
    · rw [withPage_of_ne s hqp] at hq
      exact absurd (hothers q hqp) hq

omit [DecidableEq κ] in
/-- A page that goes on with what it has, and with nothing to store. -/
theorem Shared.withPage (h : s.Shared) {page : π} {p : Page} (hcached : p.cached = (s.pages page).cached)
    (hnone : p.persisting = none) : (s.withPage page s.storage.clientId p).Shared := by
  refine h.of_same rfl (fun q => ?_) fun q hq => ?_
  · by_cases hqp : q = page
    · rw [hqp, withPage_self, hcached]
    · rw [withPage_of_ne s hqp]
  · by_cases hqp : q = page
    · rw [hqp, withPage_self] at hq
      exact absurd hnone hq
    · rwa [withPage_of_ne s hqp] at hq

omit [DecidableEq κ] in
/-- A page that reads its id while no page is about to store one. -/
theorem Shared.gotItem (h : s.Shared) (hstored : ∀ id ∈ s.storage.clientId, IsClientId id) {page : π} {call : ApiCall}
    {fresh : String} (hidle : ∀ q, (s.pages q).persisting = none) :
    (s.withPage page s.storage.clientId ((s.pages page).gotItem true fresh call s.storage.clientId)).Shared := by
  unfold Page.gotItem
  simp only [if_true]
  cases hfilter : s.storage.clientId.filter (· ≠ "") with
  | some existing =>
    have hexisting := Option.eq_some_of_filter_eq_some hfilter
    rw [hexisting]
    refine Shared.identified (fun q _ => hidle q) fun q i hi _ => ?_
    exact Option.some.inj ((h.cached q i hi).symm.trans hexisting)
  | none =>
    -- An id that is stored is not empty.
    have hnone : s.storage.clientId = none := by
      cases hid : s.storage.clientId with
      | none => rfl
      | some id =>
        have hsized := (hstored id hid).1.1
        rw [hid] at hfilter
        obtain rfl : id = "" := by simpa using hfilter
        contradiction
    refine ⟨fun q i hi => ?_, fun q _ => hnone, fun q q' hq hq' => ?_⟩
    · refine h.cached q i ?_
      by_cases hqp : q = page
      · rw [hqp, withPage_self] at hi
        rwa [hqp]
      · rwa [withPage_of_ne s hqp] at hi
    · have hpage : ∀ r, ((s.withPage page s.storage.clientId
          { s.pages page with sending := some (.persist call fresh) }).pages r).persisting ≠ none → r = page := by
        intro r hr
        by_contra hrp
        rw [withPage_of_ne s hrp] at hr
        exact hr (hidle r)
      rw [hpage q hq, hpage q' hq']

omit [DecidableEq κ] [DecidableEq π] in
/-- A response leaves the stored id and the pages' ids and writes alone. -/
theorem Shared.frame {t : BrowserSys κ π} (h : s.Shared) (hframe : Frame s t) : t.Shared := by
  refine h.of_same hframe.clientId (fun page => (hframe.pages page).1) fun page hpage => ?_
  unfold Page.persisting at hpage ⊢
  rwa [(hframe.pages page).2] at hpage

/-- Every step keeps what the pages share. -/
theorem Shared.exec (h : s.Shared) (hinv : s.Inv lower settings hasher) {i : BrowserStep κ π}
    (hallowed : allowed lower settings hasher s i) (hone : s.OneAtATime i) :
    (BrowserSys.exec lower settings hasher i s).Shared := by
  cases i with
  | api i => exact h.of_same rfl (fun _ => rfl) fun _ => id
  | hydrate page reads =>
    have hnone : (s.pages page).persisting = none := by
      unfold Page.persisting
      rw [hallowed.2]
    show (s.withPage page s.storage.clientId (if _ then _ else _)).Shared
    split_ifs
    · exact h.withPage rfl (Page.persisting_prepare .me _)
    · exact h.withPage rfl hnone
  | prepare page call => exact h.withPage rfl (Page.persisting_prepare call _)
  | getItem page reads fresh =>
    obtain ⟨rfl, hidle⟩ := hone
    obtain ⟨call, hcall⟩ := Option.isSome_iff_exists.mp hallowed.1
    rw [exec_getItem hcall]
    exact h.gotItem hinv.stored hidle
  | setItem page writes fresh =>
    obtain rfl : writes = true := hone
    obtain ⟨⟨call, generated⟩, hcall⟩ := Option.isSome_iff_exists.mp hallowed.1
    have hpage : (s.pages page).persisting ≠ none := by
      rw [hcall]
      exact Option.some_ne_none _
    -- No page has an id yet, and no other one is about to store one.
    have hnone := h.persisting page hpage
    rw [exec_setItem hcall]
    simp only [Page.didSetItem, if_true]
    refine Shared.identified (fun q hq => ?_) fun q i hi _ => ?_
    · by_contra hpersisting
      exact hq (h.one q page hpersisting hpage)
    · rw [h.cached q i hi] at hnone
      contradiction
  | fetch k page reads =>
    obtain ⟨⟨call, clientId⟩, hcall⟩ := Option.isSome_iff_exists.mp hallowed.1
    have hnext : (s.withPage page s.storage.clientId { s.pages page with sending := none }).Shared :=
      h.withPage rfl rfl
    rw [exec_fetch hcall]
    exact hnext.of_same rfl (fun _ => rfl) fun _ => id
  | receive k response writes =>
    obtain ⟨-, f, hk, -⟩ := hallowed
    rw [exec_receive hk]
    exact (h.frame (reject_frame f response writes)).of_same rfl (fun _ => rfl) fun _ => id
  | settle k writes =>
    obtain ⟨-, hreceived, f, hk, -⟩ := hallowed
    obtain ⟨response, hreceived⟩ := Option.isSome_iff_exists.mp hreceived
    rw [exec_settle hk hreceived]
    exact (h.frame (take_frame f response writes)).of_same rfl (fun _ => rfl) fun _ => id

/-- The client id of a browser: as long as `localStorage` works and its pages look for the id one at a time, all of them
send the same. -/
theorem browser_client_id (h : ((machine lower settings hasher).restrict OneAtATime).Reach s) :
    ∀ k k' f f', s.sent k = some f → s.sent k' = some f' → f.clientId = f'.clientId := by
  have hshared : s.Shared := by
    refine h.invariant ?_ fun s i hr hs ha => hs.exec (inv hr.of_restrict) ha.1 ha.2
    rintro s ⟨-, -, hpages, -⟩
    refine ⟨fun page id hid => ?_, fun page hpage => ?_, fun page page' hpage => ?_⟩
    · simp [hpages page] at hid
    · simp [hpages page, Page.persisting] at hpage
    · simp [hpages page, Page.persisting] at hpage
  intro k k' f f' hk hk'
  have hinv := inv h.of_restrict
  have hf := hshared.cached f.page _ (hinv.oneId k f hk).2
  have hf' := hshared.cached f'.page _ (hinv.oneId k' f' hk').2
  exact Option.some.inj (hf.symm.trans hf')

theorem browser_client_id_sampleShown :
    (sampleShown.sent 0).map Sent.clientId = (sampleShown.sent 1).map Sent.clientId := by
  have hruns : (sampleMachine.restrict OneAtATime).Runs sampleFresh sampleBrowserRun := by decide +kernel
  have hinit : (sampleMachine.restrict OneAtATime).Reach sampleFresh := .init sampleFresh_init
  obtain ⟨f, hf⟩ := Option.isSome_iff_exists.mp (show (sampleShown.sent 0).isSome = true by decide +kernel)
  obtain ⟨f', hf'⟩ := Option.isSome_iff_exists.mp (show (sampleShown.sent 1).isSome = true by decide +kernel)
  rw [hf, hf', Option.map_some, Option.map_some, browser_client_id (hinit.final hruns) 0 1 f f' hf hf']

/-- Two pages that make their first requests at once. -/
def sampleRacingRun : List (BrowserStep ℕ (Fin 2)) :=
  [.prepare 0 .watches, .prepare 1 .watches, .getItem 0 true sampleId, .getItem 1 true sampleOtherId,
    .setItem 0 true sampleId, .setItem 1 true sampleOtherId, .fetch 0 0 true, .fetch 1 1 true]

/-- They send two client ids, although `localStorage` works. -/
example : sampleMachine.Runs sampleFresh sampleRacingRun ∧
    ((sampleMachine.final sampleFresh sampleRacingRun).sent 0).map Sent.clientId = some sampleId ∧
    ((sampleMachine.final sampleFresh sampleRacingRun).sent 1).map Sent.clientId = some sampleOtherId := by
  decide +kernel

end BrowserSys

end Dibs
