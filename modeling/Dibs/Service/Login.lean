import Dibs.Service.Throttle

/-!
# The login route and its two throttles

`login` of `backend/api/routes/auth.py`. A request reserves an event in the window of its email and one in the
window of its address, then verifies the password, which is where others may run, and gives the events back or
keeps them by how the verification ends. `reserve` is the part before the verification and `conclude` the part
after it.

`LoginSys` interleaves the requests of one public address (`address_quota_conserved`).
-/

namespace Dibs

/-- How the password verification of a request ends: `AuthService.login` returns, it raises
`InvalidCredentialsError`, or it raises anything else, a cancellation included. -/
inductive Verification
  | success
  | invalidCredentials
  | aborted
deriving DecidableEq

/-- `login_ip_key`. -/
def loginIpKey (peer : Option String) : String := "ip:" ++ if peer.getD "" = "" then "-" else peer.getD ""

namespace LoginRoute

variable {A : Type}

/-- What `login` does before the verification: it reserves an event for the email, then one for the address, and
gives the first back when the second is refused. `consume` is `aconsume` of the address throttle; where there is
no such throttle it answers no token. -/
def reserve (email : SlidingWindowThrottle) (address : A) (emailKey : String) (r : Readings) (token : String)
    (consume : A → Except RateLimited (Option String) × A) (released : ℚ) :
    Except RateLimited (Option String × Option String) × SlidingWindowThrottle × A :=
  match email.aconsume emailKey r token with
  | (.error e, email) => (.error e, email, address)
  | (.ok emailToken, email) =>
    match consume address with
    | (.error e, address) => (.error e, email.arelease emailKey emailToken released, address)
    | (.ok addressToken, address) => (.ok (emailToken, addressToken), email, address)

/-- What `login` does with the reservations after the verification. `release` is `arelease` of the address
throttle. -/
def conclude (email : SlidingWindowThrottle) (address : A) (emailKey : String)
    (emailToken addressToken : Option String) (released : ℚ) (release : A → Option String → A) :
    Verification → SlidingWindowThrottle × A
  | .success => (email.areset emailKey, release address addressToken)
  -- The reservations stay as failed attempts.
  | .invalidCredentials => (email, address)
  | .aborted => (email.arelease emailKey emailToken released, release address addressToken)

end LoginRoute

/-! ## A throttle whose tokens are drawn once -/

namespace SlidingWindowThrottle

/-- A throttle tracks the events that stand, and these have tokens that were drawn, each its own. -/
structure Recorded (t : SlidingWindowThrottle) (now : ℚ) (drawn : List String)
    (standing : String → List ThrottleEvent) : Prop where
  tracks : t.Tracks now standing
  drawn : ∀ key, ∀ e ∈ standing key, e.token ∈ drawn
  nodup : ∀ key, ((standing key).map ThrottleEvent.token).Nodup

variable {t : SlidingWindowThrottle} {now : ℚ} {drawn : List String} {standing : String → List ThrottleEvent}

/-- An event that is released as soon as it is recorded leaves the others. -/
theorem withoutToken_withEvent (hdrawn : ∀ key, ∀ e ∈ standing key, e.token ∈ drawn) {token : String}
    (hnew : token ∉ drawn) (key : String) (time : ℚ) :
    withoutToken (withEvent standing key ⟨time, token⟩) key (some token) = standing := by
  funext k
  unfold withoutToken withEvent
  split_ifs with hk
  · have hothers : (standing k).filter (fun e => !decide (some token = some e.token)) = standing k := by
      refine List.filter_eq_self.mpr fun e he => ?_
      have hne : token ≠ e.token := fun heq => hnew (heq ▸ hdrawn k e he)
      simpa using hne
    rw [List.filter_append, hothers]
    simp
  · rfl

namespace Recorded

theorem mono (h : t.Recorded now drawn standing) {later : ℚ} (hle : now ≤ later) {drawn' : List String}
    (hsub : ∀ token ∈ drawn, token ∈ drawn') : t.Recorded later drawn' standing :=
  ⟨h.tracks.mono hle, fun key e he => hsub _ (h.drawn key e he), h.nodup⟩

/-- An event with a new token is recorded. -/
theorem more {t' : SlidingWindowThrottle} {later : ℚ} {key token : String} {time : ℚ}
    (h : t.Recorded now drawn standing) (hnew : token ∉ drawn)
    (htracks : t'.Tracks later (withEvent standing key ⟨time, token⟩)) :
    t'.Recorded later (token :: drawn) (withEvent standing key ⟨time, token⟩) where
  tracks := htracks
  drawn k e he := by
    unfold withEvent at he
    split_ifs at he
    · rcases List.mem_append.mp he with he | he
      · exact List.mem_cons_of_mem _ (h.drawn k e he)
      · obtain rfl := List.mem_singleton.mp he
        exact List.mem_cons_self
    · exact List.mem_cons_of_mem _ (h.drawn k e he)
  nodup k := by
    unfold withEvent
    split_ifs
    · rw [List.map_append, List.nodup_append]
      refine ⟨h.nodup k, List.nodup_singleton _, fun a ha b hb hab => ?_⟩
      obtain ⟨e, he, rfl⟩ := List.mem_map.mp ha
      obtain rfl := List.mem_singleton.mp hb
      exact hnew (hab ▸ h.drawn k e he)
    · exact h.nodup k

/-- Events are taken away. -/
theorem fewer {t' : SlidingWindowThrottle} {later : ℚ} {standing' : String → List ThrottleEvent}
    (h : t.Recorded now drawn standing) (htracks : t'.Tracks later standing')
    (hsub : ∀ key, (standing' key).Sublist (standing key)) : t'.Recorded later drawn standing' :=
  ⟨htracks, fun key e he => h.drawn key e ((hsub key).mem he), fun key => (h.nodup key).sublist ((hsub key).map _)⟩

theorem arelease (h : t.Recorded now drawn standing) {later : ℚ} (hle : now ≤ later) (key : String)
    (token : Option String) :
    (t.arelease key token later).Recorded later drawn (withoutToken standing key token) := by
  refine h.fewer (h.tracks.arelease hle key token (h.nodup key)) fun k => ?_
  unfold withoutToken
  split_ifs
  · exact List.filter_sublist
  · exact .refl _

theorem areset (h : t.Recorded now drawn standing) (key : String) :
    (t.areset key).Recorded now drawn (withoutKey standing key) := by
  refine h.fewer (h.tracks.areset key) fun k => ?_
  unfold withoutKey
  split_ifs
  · exact List.nil_sublist _
  · exact .refl _

/-- A reservation below the ceiling is refused, and nothing is recorded, or it is recorded with its token. -/
theorem aconsume (h : t.Recorded now drawn standing) {r : Readings} (hle : now ≤ r.checked)
    (hlimit : 1 ≤ t.maxEvents) (hsize : t.failures.size < maxTrackedKeys) (key : String) {token : String}
    (hnew : token ∉ drawn) :
    ((t.aconsume key r token).1 = .error .rateLimited ∧
        t.maxEvents ≤ (counting t.window r.checked (standing key)).length ∧
        (t.aconsume key r token).2.Recorded r.recorded (token :: drawn) standing) ∨
      ((t.aconsume key r token).1 = .ok (some token) ∧
        (counting t.window r.checked (standing key)).length < t.maxEvents ∧
        (t.aconsume key r token).2.Recorded r.recorded (token :: drawn)
          (withEvent standing key ⟨r.recorded, token⟩)) := by
  rcases h.tracks.aconsume hle hlimit key token with
    ⟨hanswer, hfull, htracks⟩ | ⟨hroom, ⟨hanswer, htracks⟩ | ⟨-, -, hceiling⟩⟩
  · left
    refine ⟨hanswer, hfull, htracks, fun k e he => List.mem_cons_of_mem _ (h.drawn k e he), h.nodup⟩
  · exact .inr ⟨hanswer, hroom, h.more hnew htracks⟩
  · exact absurd hceiling (not_le.mpr hsize)

end Recorded

end SlidingWindowThrottle

/-- What a request does before its verification: the email refuses it, the address refuses it and its event for
the email is given back, or both admit it. -/
theorem LoginRoute.reserve_spec {A : Type} {email : SlidingWindowThrottle} {now : ℚ} {drawn : List String}
    {standing : String → List ThrottleEvent} (h : email.Recorded now drawn standing) (address : A)
    (emailKey : String) {r : Readings} (hle : now ≤ r.checked) (hlimit : 1 ≤ email.maxEvents)
    (hsize : email.failures.size < maxTrackedKeys) {token : String} (hnew : token ∉ drawn)
    (consume : A → Except RateLimited (Option String) × A) {released : ℚ} (hreleased : r.recorded ≤ released) :
    ∃ email' : SlidingWindowThrottle, email.Within email' ∧
      ((reserve email address emailKey r token consume released = (.error .rateLimited, email', address) ∧
          email'.Recorded r.recorded (token :: drawn) standing) ∨
        (∃ address', consume address = (.error .rateLimited, address') ∧
          reserve email address emailKey r token consume released = (.error .rateLimited, email', address') ∧
          email'.Recorded released (token :: drawn) standing) ∨
        ∃ addressToken address', consume address = (.ok addressToken, address') ∧
          reserve email address emailKey r token consume released =
            (.ok (some token, addressToken), email', address') ∧
          (SlidingWindowThrottle.counting email.window r.checked (standing emailKey)).length < email.maxEvents ∧
          email'.Recorded r.recorded (token :: drawn)
            (SlidingWindowThrottle.withEvent standing emailKey ⟨r.recorded, token⟩)) := by
  have hwithin := SlidingWindowThrottle.within_aconsume email emailKey r token
  have hspec := h.aconsume hle hlimit hsize emailKey hnew
  unfold reserve
  cases hemail : email.aconsume emailKey r token with
  | mk answer email' =>
    rw [hemail] at hwithin hspec
    rcases hspec with ⟨rfl, -, hrecorded⟩ | ⟨rfl, hroom, hrecorded⟩
    · exact ⟨email', hwithin, .inl ⟨rfl, hrecorded⟩⟩
    · dsimp only
      cases hconsume : consume address with
      | mk answer address' =>
        cases answer with
        | error e =>
          have hback := hrecorded.arelease hreleased emailKey (some token)
          rw [SlidingWindowThrottle.withoutToken_withEvent h.drawn hnew] at hback
          exact ⟨_, hwithin.trans (SlidingWindowThrottle.within_arelease email' emailKey (some token) released),
            .inr (.inl ⟨address', rfl, rfl, hback⟩)⟩
        | ok addressToken =>
          exact ⟨email', hwithin, .inr (.inr ⟨addressToken, address', rfl, rfl, hroom, hrecorded⟩)⟩

/-! ## The requests of one address -/

/-- A request that was admitted by both throttles. -/
structure LoginRequest where
  request : ℕ
  emailKey : String
  emailToken : Option String
  addressToken : Option String
  /-- When its event was recorded in the window of the address. -/
  admitted : ℚ
  /-- How its verification ended, or `none` while it runs. -/
  ended : Option Verification
deriving DecidableEq

namespace LoginRequest

/-- The event of a request in the window of its address. -/
def event (r : LoginRequest) : ThrottleEvent := ⟨r.admitted, r.addressToken.getD ""⟩

/-- The verification runs, or it found the credentials invalid. -/
def Occupies (r : LoginRequest) : Prop := r.ended = none ∨ r.ended = some .invalidCredentials

instance (r : LoginRequest) : Decidable r.Occupies :=
  inferInstanceAs (Decidable (r.ended = none ∨ r.ended = some .invalidCredentials))

/-- The verification of one request ends. -/
def mark (request : ℕ) (how : Verification) (r : LoginRequest) : LoginRequest :=
  if r.request = request then { r with ended := some how } else r

end LoginRequest

/-- Both throttles with the requests that they admitted, oldest first. -/
structure LoginSys where
  email : SlidingWindowThrottle
  address : SlidingWindowThrottle
  /-- The last reading of the clock. -/
  now : ℚ
  requests : List LoginRequest
  /-- The tokens that were drawn. -/
  drawn : List String

/-- A request runs up to its verification, or from there to its end. -/
inductive LoginStep
  | start (request : ℕ) (emailKey : String) (emailReadings : Readings) (emailToken : String)
    (addressReadings : Readings) (addressToken : String) (released : ℚ)
  | finish (request : ℕ) (how : Verification) (emailReleased addressReleased : ℚ)

namespace LoginSys

open SlidingWindowThrottle

variable (peer : Option String)

/-- One step of one request. -/
def exec : LoginStep → LoginSys → LoginSys
  | .start request emailKey emailReadings emailToken addressReadings addressToken released, s =>
    match LoginRoute.reserve s.email s.address emailKey emailReadings emailToken
      (fun address => address.aconsume (loginIpKey peer) addressReadings addressToken) released with
    | (.error _, email, address) => ⟨email, address, released, s.requests, addressToken :: emailToken :: s.drawn⟩
    | (.ok tokens, email, address) =>
      ⟨email, address, released,
        s.requests ++ [⟨request, emailKey, tokens.1, tokens.2, addressReadings.recorded, none⟩],
        addressToken :: emailToken :: s.drawn⟩
  | .finish request how emailReleased addressReleased, s =>
    match s.requests.find? fun r => r.request = request with
    | none => s
    | some r =>
      let (email, address) := LoginRoute.conclude s.email s.address r.emailKey r.emailToken r.addressToken
        emailReleased (fun address token => address.arelease (loginIpKey peer) token addressReleased) how
      ⟨email, address, addressReleased, s.requests.map (.mark request how), s.drawn⟩

/-- The clock does not go back, `uuid4` draws new tokens, neither throttle is at its ceiling, and a verification
ends once. -/
def allowed (s : LoginSys) : LoginStep → Prop
  | .start request _ emailReadings emailToken addressReadings addressToken released =>
    s.now ≤ emailReadings.checked ∧ emailReadings.recorded ≤ addressReadings.checked ∧
      addressReadings.recorded ≤ released ∧ emailToken ∉ s.drawn ∧ addressToken ∉ emailToken :: s.drawn ∧
      s.email.failures.size < maxTrackedKeys ∧ s.address.failures.size < maxTrackedKeys ∧
      ∀ r ∈ s.requests, r.request ≠ request
  | .finish request _ emailReleased addressReleased =>
    s.now ≤ emailReleased ∧ emailReleased ≤ addressReleased ∧ ∃ r ∈ s.requests, r.request = request ∧ r.ended = none

/-- All interleavings of the requests of one public address, on throttles that begin with no events. -/
def machine (emailMax addressMax : ℕ) (emailWindow addressWindow : ℤ) : Machine LoginSys LoginStep where
  init s := s.email = .new emailMax emailWindow ∧ s.address = .new addressMax addressWindow ∧ s.requests = [] ∧
    s.drawn = []
  allowed := allowed
  exec := exec peer

/-- The live events of a key of the email throttle. -/
def liveEmail (s : LoginSys) (key : String) (t : ℚ) : List ThrottleEvent :=
  SlidingWindow.live ThrottleEvent.time s.email.window t (s.email.stored key)

/-- The live events of the address. -/
def liveAddress (s : LoginSys) (t : ℚ) : List ThrottleEvent :=
  SlidingWindow.live ThrottleEvent.time s.address.window t (s.address.stored (loginIpKey peer))

/-! ### What the requests occupy -/

/-- The events of the requests that occupy the window of the address. -/
def occupied (requests : List LoginRequest) : String → List ThrottleEvent :=
  fun key => if loginIpKey peer = key then (requests.filter (·.Occupies)).map LoginRequest.event else []

/-- Requests differ, and so do their tokens. -/
def Apart (requests : List LoginRequest) : Prop :=
  requests.Pairwise fun r r' => r.request ≠ r'.request ∧ r.addressToken ≠ r'.addressToken

theorem Apart.ne {requests : List LoginRequest} (h : Apart requests) {r r' : LoginRequest}
    (hr : r ∈ requests) (hr' : r' ∈ requests) (hne : r ≠ r') :
    r.request ≠ r'.request ∧ r.addressToken ≠ r'.addressToken := by
  have hsymm : Std.Symm fun r r' : LoginRequest =>
      r.request ≠ r'.request ∧ r.addressToken ≠ r'.addressToken :=
    ⟨fun _ _ hdiffer => ⟨hdiffer.1.symm, hdiffer.2.symm⟩⟩
  exact List.Pairwise.forall h hr hr' hne

/-- Whether requests are the same shows in their tokens. -/
theorem Apart.token_iff {requests : List LoginRequest} (h : Apart requests) {r r' : LoginRequest}
    (hr : r ∈ requests) (hr' : r' ∈ requests) : r.addressToken = r'.addressToken ↔ r.request = r'.request := by
  by_cases heq : r = r'
  · subst heq
    exact ⟨fun _ => rfl, fun _ => rfl⟩
  · have hne := h.ne hr hr' heq
    exact ⟨fun htoken => absurd htoken hne.2, fun hrequest => absurd hrequest hne.1⟩

/-- A request that is admitted occupies one event. -/
theorem occupied_append (requests : List LoginRequest) {r : LoginRequest} (h : r.ended = none) :
    occupied peer (requests ++ [r]) = withEvent (occupied peer requests) (loginIpKey peer) r.event := by
  have hoccupies : r.Occupies := .inl h
  funext key
  unfold occupied withEvent
  beta_reduce
  split_ifs
  · rw [List.filter_append, List.filter_cons_of_pos (by simpa using hoccupies), List.map_append]
    rfl
  · rfl

variable {peer}

/-- A failed attempt keeps its event. -/
theorem occupied_kept {requests : List LoginRequest} {r : LoginRequest} (happart : Apart requests)
    (hr : r ∈ requests) (hrunning : r.ended = none) :
    occupied peer (requests.map (.mark r.request .invalidCredentials)) = occupied peer requests := by
  funext key
  unfold occupied
  rw [List.filter_map, List.map_map]
  have hevent : LoginRequest.event ∘ LoginRequest.mark r.request .invalidCredentials = LoginRequest.event := by
    funext x
    unfold LoginRequest.mark
    rw [Function.comp_apply]
    split_ifs <;> rfl
  have hfilter : requests.filter ((fun x => decide x.Occupies) ∘ LoginRequest.mark r.request .invalidCredentials) =
      requests.filter (·.Occupies) := by
    refine List.filter_congr fun x hx => ?_
    have hsame : x.request = r.request → x.ended = none := by
      intro heq
      by_cases hxr : x = r
      · rw [hxr]
        exact hrunning
      · exact absurd heq (happart.ne hx hr hxr).1
    rw [Function.comp_apply, decide_eq_decide]
    unfold LoginRequest.mark LoginRequest.Occupies
    split_ifs with heq
    · rw [hsame heq]
      simp
    · rfl
  rw [hevent, hfilter]

/-- Any other end gives the event back. -/
theorem occupied_released {requests : List LoginRequest} {r : LoginRequest} (happart : Apart requests)
    (htokens : ∀ x ∈ requests, ∃ token, x.addressToken = some token) (hr : r ∈ requests) {how : Verification}
    (hhow : how ≠ .invalidCredentials) :
    occupied peer (requests.map (.mark r.request how)) =
      withoutToken (occupied peer requests) (loginIpKey peer) r.addressToken := by
  funext key
  unfold occupied withoutToken
  beta_reduce
  split_ifs
  · rw [List.filter_map, List.map_map, List.filter_map, List.filter_filter]
    have hevent : LoginRequest.event ∘ LoginRequest.mark r.request how = LoginRequest.event := by
      funext x
      unfold LoginRequest.mark
      rw [Function.comp_apply]
      split_ifs <;> rfl
    have hfilter : requests.filter ((fun x => decide x.Occupies) ∘ LoginRequest.mark r.request how) =
        requests.filter fun x =>
          ((fun e => !decide (r.addressToken = some e.token)) ∘ LoginRequest.event) x && decide x.Occupies := by
      refine List.filter_congr fun x hx => ?_
      obtain ⟨token, htoken⟩ := htokens x hx
      have hsame : r.addressToken = some x.event.token ↔ r.request = x.request := by
        rw [← happart.token_iff hr hx, htoken]
        unfold LoginRequest.event
        rw [htoken, Option.getD_some]
      rw [Function.comp_apply, Function.comp_apply]
      unfold LoginRequest.mark
      split_ifs with heq
      · have hgone : ¬ ({ x with ended := some how } : LoginRequest).Occupies := by
          unfold LoginRequest.Occupies
          simpa using hhow
        rw [decide_eq_false hgone, decide_eq_true (hsame.mpr heq.symm)]
        rfl
      · rw [decide_eq_false (mt hsame.mp (Ne.symm heq))]
        rfl
    rw [hevent, hfilter]
  · rfl

/-! ### The invariant -/

/-- What every step keeps. -/
structure Inv (peer : Option String) (emailMax addressMax : ℕ) (emailWindow addressWindow : ℤ) (s : LoginSys) :
    Prop where
  limits : s.email.maxEvents = emailMax ∧ s.address.maxEvents = addressMax
  widths : s.email.windowSeconds = emailWindow ∧ s.address.windowSeconds = addressWindow
  email : ∃ standing, s.email.Recorded s.now s.drawn standing
  /-- The requests that run or failed are those that the address throttle tracks. -/
  address : s.address.Recorded s.now s.drawn (occupied peer s.requests)
  tokens : ∀ r ∈ s.requests, ∃ token ∈ s.drawn, r.addressToken = some token
  apart : Apart s.requests

variable {emailMax addressMax : ℕ} {emailWindow addressWindow : ℤ} {s : LoginSys}

/-- The part before the verification keeps the invariant. -/
theorem Inv.start (hemail : 1 ≤ emailMax) (haddress : 1 ≤ addressMax)
    (h : s.Inv peer emailMax addressMax emailWindow addressWindow) {request : ℕ} {emailKey : String}
    {r r' : Readings} {emailToken addressToken : String} {released : ℚ}
    (ha : s.allowed (.start request emailKey r emailToken r' addressToken released)) :
    (exec peer (.start request emailKey r emailToken r' addressToken released) s).Inv peer emailMax addressMax
      emailWindow addressWindow := by
  obtain ⟨hle, hbetween, hreleased, hemailNew, haddressNew, hemailSize, haddressSize, hfresh⟩ := ha
  obtain ⟨standing, hstanding⟩ := h.email
  have hchecked : r.checked ≤ r.recorded := r.checked_le.trans ((r.looked_le 0).trans (r.swept_le 0))
  have hchecked' : r'.checked ≤ r'.recorded := r'.checked_le.trans ((r'.looked_le 0).trans (r'.swept_le 0))
  have hlater : r.recorded ≤ released := hbetween.trans (hchecked'.trans hreleased)
  have hdrawn : ∀ token ∈ emailToken :: s.drawn, token ∈ addressToken :: emailToken :: s.drawn :=
    fun token ht => List.mem_cons_of_mem _ ht
  have hbefore : s.address.Recorded r.recorded (emailToken :: s.drawn) (occupied peer s.requests) :=
    h.address.mono (hle.trans hchecked) fun token ht => List.mem_cons_of_mem _ ht
  have hconsumed := hbefore.aconsume hbetween (haddress.trans_eq h.limits.2.symm) haddressSize (loginIpKey peer)
    haddressNew
  have hwithin := SlidingWindowThrottle.within_aconsume s.address (loginIpKey peer) r' addressToken
  have htokens : ∀ x ∈ s.requests, ∃ token ∈ addressToken :: emailToken :: s.drawn, x.addressToken = some token := by
    intro x hx
    obtain ⟨token, ht, htoken⟩ := h.tokens x hx
    exact ⟨token, hdrawn token (List.mem_cons_of_mem _ ht), htoken⟩
  obtain ⟨email', hframe, hcases⟩ := LoginRoute.reserve_spec hstanding s.address emailKey hle
    (hemail.trans_eq h.limits.1.symm) hemailSize hemailNew
    (fun address => address.aconsume (loginIpKey peer) r' addressToken) hlater
  have hlimit : email'.maxEvents = emailMax := hframe.maxEvents.trans h.limits.1
  have hwidth : email'.windowSeconds = emailWindow := hframe.windowSeconds.trans h.widths.1
  unfold LoginSys.exec
  dsimp only
  rcases hcases with ⟨hreserve, hrecorded⟩ | ⟨address', hconsume, hreserve, hrecorded⟩ |
    ⟨token, address', hconsume, hreserve, -, hrecorded⟩
  · rw [hreserve]
    exact ⟨⟨hlimit, h.limits.2⟩, ⟨hwidth, h.widths.2⟩, ⟨standing, hrecorded.mono hlater hdrawn⟩,
      hbefore.mono hlater hdrawn, htokens, h.apart⟩
  · rw [hreserve]
    rw [hconsume] at hwithin hconsumed
    rcases hconsumed with ⟨-, -, haddress'⟩ | ⟨hok, -⟩
    · exact ⟨⟨hlimit, hwithin.maxEvents.trans h.limits.2⟩, ⟨hwidth, hwithin.windowSeconds.trans h.widths.2⟩,
        ⟨standing, hrecorded.mono le_rfl hdrawn⟩, haddress'.mono hreleased fun token ht => ht, htokens, h.apart⟩
    · contradiction
  · rw [hreserve]
    rw [hconsume] at hwithin hconsumed
    rcases hconsumed with ⟨herror, -⟩ | ⟨hok, -, haddress'⟩
    · contradiction
    · obtain rfl := Except.ok.inj hok
      refine ⟨⟨hlimit, hwithin.maxEvents.trans h.limits.2⟩, ⟨hwidth, hwithin.windowSeconds.trans h.widths.2⟩,
        ⟨_, hrecorded.mono hlater hdrawn⟩, ?_, fun x hx => ?_, ?_⟩
      · dsimp only
        rw [occupied_append peer s.requests rfl]
        exact haddress'.mono hreleased fun token ht => ht
      · rcases List.mem_append.mp hx with hx | hx
        · exact htokens x hx
        · obtain rfl := List.mem_singleton.mp hx
          exact ⟨addressToken, List.mem_cons_self, rfl⟩
      · refine List.pairwise_append.mpr ⟨h.apart, List.pairwise_singleton _ _, fun x hx y hy => ?_⟩
        obtain rfl := List.mem_singleton.mp hy
        obtain ⟨token, ht, htoken⟩ := h.tokens x hx
        refine ⟨hfresh x hx, ?_⟩
        rw [htoken]
        exact fun heq => haddressNew (List.mem_cons_of_mem _ (Option.some.inj heq ▸ ht))

/-- The part after it does. -/
theorem Inv.finish (h : s.Inv peer emailMax addressMax emailWindow addressWindow) {request : ℕ}
    {how : Verification} {emailReleased addressReleased : ℚ}
    (ha : s.allowed (.finish request how emailReleased addressReleased)) :
    (exec peer (.finish request how emailReleased addressReleased) s).Inv peer emailMax addressMax emailWindow
      addressWindow := by
  obtain ⟨hle, hbetween, running, hmem, rfl, hrunning⟩ := ha
  obtain ⟨standing, hstanding⟩ := h.email
  have hsome : ∀ x ∈ s.requests, ∃ token, x.addressToken = some token := fun x hx =>
    have ⟨token, _, htoken⟩ := h.tokens x hx
    ⟨token, htoken⟩
  -- The request that is found is the one that runs.
  obtain ⟨r, hfind⟩ : ∃ r, s.requests.find? (fun r => r.request = running.request) = some r :=
    Option.isSome_iff_exists.mp (List.find?_isSome.mpr ⟨running, hmem, by simp⟩)
  have hr : r = running := by
    have hrequest : r.request = running.request := by simpa using List.find?_some hfind
    by_contra hne
    exact (h.apart.ne (List.mem_of_find?_eq_some hfind) hmem hne).1 hrequest
  subst hr
  have htokens : ∀ x ∈ s.requests.map (LoginRequest.mark r.request how),
      ∃ token ∈ s.drawn, x.addressToken = some token := by
    intro x hx
    obtain ⟨y, hy, rfl⟩ := List.mem_map.mp hx
    obtain ⟨token, ht, htoken⟩ := h.tokens y hy
    refine ⟨token, ht, ?_⟩
    unfold LoginRequest.mark
    split_ifs <;> exact htoken
  have hapart : Apart (s.requests.map (LoginRequest.mark r.request how)) := by
    refine List.pairwise_map.mpr (h.apart.imp fun {x y} hne => ?_)
    unfold LoginRequest.mark
    split_ifs <;> exact hne
  have hlater : s.now ≤ addressReleased := hle.trans hbetween
  unfold LoginSys.exec
  dsimp only
  rw [hfind]
  dsimp only
  cases how with
  | invalidCredentials =>
    refine ⟨h.limits, h.widths, ⟨standing, hstanding.mono hlater fun _ ht => ht⟩, ?_, htokens, hapart⟩
    dsimp only [LoginRoute.conclude]
    rw [occupied_kept h.apart hmem hrunning]
    exact h.address.mono hlater fun _ ht => ht
  | success =>
    have hreleased := h.address.arelease hlater (loginIpKey peer) r.addressToken
    have hwithin := within_arelease s.address (loginIpKey peer) r.addressToken addressReleased
    have hhow : Verification.success ≠ .invalidCredentials := by decide
    rw [← occupied_released h.apart hsome hmem hhow] at hreleased
    exact ⟨⟨h.limits.1, hwithin.maxEvents.trans h.limits.2⟩, ⟨h.widths.1, hwithin.windowSeconds.trans h.widths.2⟩,
      ⟨_, (hstanding.areset r.emailKey).mono hlater fun _ ht => ht⟩, hreleased, htokens, hapart⟩
  | aborted =>
    have hreleased := h.address.arelease hlater (loginIpKey peer) r.addressToken
    have hwithin := within_arelease s.address (loginIpKey peer) r.addressToken addressReleased
    have hwithin' := within_arelease s.email r.emailKey r.emailToken emailReleased
    have hhow : Verification.aborted ≠ .invalidCredentials := by decide
    rw [← occupied_released h.apart hsome hmem hhow] at hreleased
    exact ⟨⟨hwithin'.maxEvents.trans h.limits.1, hwithin.maxEvents.trans h.limits.2⟩,
      ⟨hwithin'.windowSeconds.trans h.widths.1, hwithin.windowSeconds.trans h.widths.2⟩,
      ⟨_, (hstanding.arelease hle r.emailKey r.emailToken).mono hbetween fun _ ht => ht⟩, hreleased, htokens,
      hapart⟩

theorem inv (hemail : 1 ≤ emailMax) (haddress : 1 ≤ addressMax)
    (h : (machine peer emailMax addressMax emailWindow addressWindow).Reach s) :
    s.Inv peer emailMax addressMax emailWindow addressWindow := by
  refine h.invariant (fun s hs => ?_) fun s i _ hs ha => ?_
  · obtain ⟨hemail, haddress, hrequests, hdrawn⟩ := hs
    have hnew : ∀ (m : ℕ) (w : ℤ), (SlidingWindowThrottle.new m w).Recorded s.now s.drawn fun _ => [] :=
      fun m w => ⟨fun _ => .nil _, fun _ e he => absurd he List.not_mem_nil, fun _ => List.nodup_nil⟩
    have hoccupied : occupied peer s.requests = fun _ => [] := by
      funext key
      unfold occupied
      rw [hrequests]
      split_ifs <;> rfl
    refine ⟨by rw [hemail, haddress]; exact ⟨rfl, rfl⟩, by rw [hemail, haddress]; exact ⟨rfl, rfl⟩,
      ⟨_, hemail ▸ hnew emailMax emailWindow⟩, ?_, ?_, ?_⟩
    · rw [hoccupied, haddress]
      exact hnew addressMax addressWindow
    · rw [hrequests]
      simp
    · rw [hrequests]
      exact List.Pairwise.nil
  · cases i with
    | start request emailKey r emailToken r' addressToken released => exact hs.start hemail haddress ha
    | finish request how emailReleased addressReleased => exact hs.finish ha

/-- The live events of the address are those of the requests that run or failed and were admitted within the
window. -/
theorem Inv.liveAddress_eq (h : s.Inv peer emailMax addressMax emailWindow addressWindow) {t : ℚ}
    (ht : s.now ≤ t) : s.liveAddress peer t =
      (s.requests.filter fun r => decide (r.Occupies ∧ t - addressWindow < r.admitted)).map LoginRequest.event := by
  have hlive := (h.address.tracks (loginIpKey peer)).live t ht
  have hwindow : s.address.window = addressWindow := congrArg Int.cast h.widths.2
  unfold LoginSys.liveAddress
  rw [hlive, hwindow]
  unfold SlidingWindow.live occupied
  rw [if_pos rfl, List.filter_map, List.filter_filter]
  congr 1
  refine List.filter_congr fun r _ => ?_
  rw [Bool.decide_and, Bool.and_comm]
  rfl

/-- A request that the address throttle refuses leaves the windows of the email throttle as they were. -/
theorem Inv.liveEmail_refused (hemail : 1 ≤ emailMax)
    (h : s.Inv peer emailMax addressMax emailWindow addressWindow) {request : ℕ} {emailKey : String}
    {r r' : Readings} {emailToken addressToken : String} {released : ℚ}
    (ha : s.allowed (.start request emailKey r emailToken r' addressToken released))
    (hrefused : (s.address.aconsume (loginIpKey peer) r' addressToken).1 = .error .rateLimited) (key : String)
    {t : ℚ} (ht : released ≤ t) :
    (exec peer (.start request emailKey r emailToken r' addressToken released) s).liveEmail key t =
      s.liveEmail key t := by
  obtain ⟨hle, hbetween, hreleased, hnew, -, hsize, -⟩ := ha
  obtain ⟨standing, hstanding⟩ := h.email
  have hchecked : r.checked ≤ r.recorded := r.checked_le.trans ((r.looked_le 0).trans (r.swept_le 0))
  have hchecked' : r'.checked ≤ r'.recorded := r'.checked_le.trans ((r'.looked_le 0).trans (r'.swept_le 0))
  have hlater : r.recorded ≤ released := hbetween.trans (hchecked'.trans hreleased)
  obtain ⟨email', hframe, hcases⟩ := LoginRoute.reserve_spec hstanding s.address emailKey hle
    (hemail.trans_eq h.limits.1.symm) hsize hnew
    (fun address => address.aconsume (loginIpKey peer) r' addressToken) hlater
  have hbefore := (hstanding.tracks key).live t (hle.trans (hchecked.trans (hlater.trans ht)))
  -- Either way the email throttle tracks the events that it tracked.
  have hkept : ∀ {later : ℚ} {drawn : List String}, later ≤ t → email'.Recorded later drawn standing →
      SlidingWindow.live ThrottleEvent.time email'.window t (email'.stored key) =
        SlidingWindow.live ThrottleEvent.time s.email.window t (s.email.stored key) := by
    intro later drawn hlt hrecorded
    rw [(hrecorded.tracks key).live t hlt, hbefore, hframe.window]
  unfold LoginSys.exec LoginSys.liveEmail
  dsimp only
  rcases hcases with ⟨hreserve, hrecorded⟩ | ⟨address', -, hreserve, hrecorded⟩ |
    ⟨token, address', hconsume, hreserve, -⟩
  · rw [hreserve]
    exact hkept (hlater.trans ht) hrecorded
  · rw [hreserve]
    exact hkept ht hrecorded
  · rw [hconsume] at hrefused
    contradiction

end LoginSys

/-- The quota of an address is conserved. At every moment its live events are those of the requests, one for each,
that were admitted within the window and whose verification runs or failed, so when all have finished they are
those of the failed ones. A request that the address throttle refuses leaves the windows of all emails as they
were. -/
theorem address_quota_conserved {peer : Option String} {emailMax addressMax : ℕ} {emailWindow addressWindow : ℤ}
    (hemail : 1 ≤ emailMax) (haddress : 1 ≤ addressMax) {s : LoginSys}
    (h : (LoginSys.machine peer emailMax addressMax emailWindow addressWindow).Reach s) :
    (∀ t, s.now ≤ t → s.liveAddress peer t =
        (s.requests.filter fun r => decide (r.Occupies ∧ t - addressWindow < r.admitted)).map
          LoginRequest.event) ∧
      ((∀ r ∈ s.requests, r.ended ≠ none) → ∀ t, s.now ≤ t → s.liveAddress peer t =
        (s.requests.filter fun r =>
          decide (r.ended = some .invalidCredentials ∧ t - addressWindow < r.admitted)).map LoginRequest.event) ∧
      ∀ request emailKey r emailToken r' addressToken released,
        s.allowed (.start request emailKey r emailToken r' addressToken released) →
          (s.address.aconsume (loginIpKey peer) r' addressToken).1 = .error .rateLimited →
            ∀ key t, released ≤ t →
              (LoginSys.exec peer (.start request emailKey r emailToken r' addressToken released) s).liveEmail key
                t = s.liveEmail key t := by
  have hinv := LoginSys.inv hemail haddress h
  refine ⟨fun t ht => hinv.liveAddress_eq ht, fun hended t ht => ?_,
    fun request emailKey r emailToken r' addressToken released ha hrefused key t ht =>
      hinv.liveEmail_refused hemail ha hrefused key ht⟩
  rw [hinv.liveAddress_eq ht]
  congr 1
  refine List.filter_congr fun r hr => ?_
  have hoccupies : r.Occupies ↔ r.ended = some .invalidCredentials := or_iff_right (hended r hr)
  rw [decide_eq_decide, hoccupies]

/-- A request from a public address, by a throttle of one attempt in a minute for each. -/
def LoginSys.begun : LoginSys :=
  .exec (some "8.8.8.8") (.start 0 "email:a@example.com" (.once 0) "a" (.once 0) "b" 0)
    ⟨.new 1 60, .new 1 60, 0, [], []⟩

/-- Its password was wrong. -/
def LoginSys.guessed : LoginSys := .exec (some "8.8.8.8") (.finish 0 .invalidCredentials 0 0) .begun

theorem LoginSys.guessed_reach : (LoginSys.machine (some "8.8.8.8") 1 1 60 60).Reach LoginSys.guessed := by
  have hinit : (LoginSys.machine (some "8.8.8.8") 1 1 60 60).init ⟨.new 1 60, .new 1 60, 0, [], []⟩ :=
    ⟨rfl, rfl, rfl, rfl⟩
  have hstart : (LoginSys.machine (some "8.8.8.8") 1 1 60 60).allowed ⟨.new 1 60, .new 1 60, 0, [], []⟩
      (.start 0 "email:a@example.com" (.once 0) "a" (.once 0) "b" 0) :=
    ⟨le_refl (0 : ℚ), le_refl (0 : ℚ), le_refl (0 : ℚ), by decide, by decide, by decide, by decide, by simp⟩
  have hfinish : (LoginSys.machine (some "8.8.8.8") 1 1 60 60).allowed LoginSys.begun
      (.finish 0 .invalidCredentials 0 0) :=
    ⟨le_refl (0 : ℚ), le_refl (0 : ℚ), ⟨0, "email:a@example.com", some "a", some "b", 0, none⟩, by decide +kernel,
      rfl, rfl⟩
  exact .step _ (.step _ (.init hinit) hstart) hfinish

/-- Its event still counts after 59 seconds. -/
theorem address_quota_conserved_guessed : LoginSys.guessed.liveAddress (some "8.8.8.8") 59 = [⟨0, "b"⟩] := by
  have hconserved := address_quota_conserved le_rfl le_rfl LoginSys.guessed_reach
  rw [hconserved.1 59 (by decide +kernel)]
  decide +kernel

end Dibs
