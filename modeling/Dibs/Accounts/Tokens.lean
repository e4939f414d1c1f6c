import Dibs.Accounts.Sessions

/-!
# Tokens that are drawn once

`_issue_session` draws each token with `secrets.token_urlsafe`. `DrawSys` is the account service with the tokens
that were drawn so far, none of which is drawn again. So a session is opened once for its token, by one call;
whoever presents a token is who it was handed out to, or nobody; and nobody comes with a token that was logged out.
-/

namespace Dibs

variable {κ : Type*}

namespace AuthEvent

/-- The token for which an event opens a session. -/
def opens : AuthEvent κ → Option String
  | opened _ token _ => some token
  | _ => none

/-- The call of an event. -/
def caller : AuthEvent κ → κ
  | started k _ | created k _ _ | opened k _ _ | revoked k _ | looked k _ | answered k _ _ _ => k

/-- An event that starts a call. -/
def starts : AuthEvent κ → Bool
  | started _ _ => true
  | _ => false

/-- An event that opens a session. -/
theorem mem_opens {journal : List (AuthEvent κ)} {token : String} :
    token ∈ journal.filterMap opens ↔ ∃ k session, opened k token session ∈ journal := by
  rw [List.mem_filterMap]
  constructor
  · rintro ⟨e, he, hopens⟩
    cases e with
    | opened k t session =>
      obtain rfl := Option.some.inj hopens
      exact ⟨k, session, he⟩
    | _ => contradiction
  · rintro ⟨k, session, he⟩
    exact ⟨_, he, rfl⟩

end AuthEvent

open AuthEvent

/-! ## Tokens that are over -/

/-- A token had a session, and has none. -/
def Over (journal : List (AuthEvent κ)) (token : String) : Prop :=
  (∃ k session, opened k token session ∈ journal) ∧ sessionOf journal token = none

/-- What is over stays over: no session is opened for the token again. -/
theorem Over.append {journal events : List (AuthEvent κ)} {token : String} (h : Over journal token)
    (honce : ((events ++ journal).filterMap opens).Nodup) : Over (events ++ journal) token := by
  induction events with
  | nil => exact h
  | cons e events ih =>
    have hrest : ((events ++ journal).filterMap opens).Nodup :=
      honce.sublist ((List.sublist_cons_self e (events ++ journal)).filterMap opens)
    obtain ⟨⟨k, session, hopened⟩, hnone⟩ := ih hrest
    refine ⟨⟨k, session, List.mem_cons_of_mem _ hopened⟩, ?_⟩
    change latest ((e :: (events ++ journal)).filterMap write) token = none
    cases e with
    | opened k' t σ =>
      have hne : t ≠ token := by
        rintro rfl
        exact (List.nodup_cons.mp honce).1 (mem_opens.mpr ⟨k, session, hopened⟩)
      change (if t = token then some σ else sessionOf (events ++ journal) token) = none
      rw [if_neg hne, hnone]
    | revoked k' t =>
      change (if t = token then none else sessionOf (events ++ journal) token) = none
      rw [hnone, ite_self]
    | _ => exact hnone

/-- A token that is revoked is over. -/
theorem over_of_revoked {journal : List (AuthEvent κ)} {token : String} {k k' : κ} {session : Session}
    (hopened : opened k token session ∈ journal) : Over (revoked k' token :: journal) token := by
  refine ⟨⟨k, session, List.mem_cons_of_mem _ hopened⟩, ?_⟩
  change (if token = token then none else sessionOf journal token) = none
  rw [if_pos rfl]

/-! ## What a step does to its call -/

/-- A call that has inserted its session, or is over. -/
def AuthCall.Past (call : AuthCall) : Prop :=
  (∃ user token session, call.pc = .opening user token session ∧ call.answer.isSome = true) ∨
    ∃ outcome, call.pc = .done outcome

/-- What a step of a call does, as far as its token goes: where it was, where it comes, what it draws, its events. -/
structure AuthCall.Goes (k : κ) (before after : AuthCall) (draws : Option String) (events : List (AuthEvent κ)) :
    Prop where
  begun : after.pc ≠ .idle
  callers : ∀ e ∈ events, e.caller = k
  /-- A call starts when it was not called yet. -/
  starts : (∀ e ∈ events, e.starts = false) ∨ before.pc = .idle ∧ ∃ request, events = [started k request]
  /-- A call that is about to open a session was so before, or has drawn its token. -/
  drawn : ∀ user token session, after.pc = .opening user token session →
    before.pc = .opening user token session ∨ draws = some token
  /-- A session is opened by the call that is about to, once. -/
  opened : events.filterMap opens = [] ∨ ∃ user token session, before.pc = .opening user token session ∧
    before.answer = none ∧ after.Past ∧ events = [opened k token session]
  past : before.Past → after.Past
  /-- A call that is over awaits nothing. -/
  rest : ∀ outcome, after.pc = .done outcome → after.answer = none

/-- A call that begins is under way, and not about to open a session. -/
theorem begin_ne_idle_opening (lower : String → String) (settings : AccountSettings) (request : AuthRequest) :
    AuthService.begin lower settings request ≠ .idle ∧
      ∀ user token session, AuthService.begin lower settings request ≠ .opening user token session := by
  cases request with
  | signup email password =>
    simp only [AuthService.begin]
    split
    · exact ⟨by simp, by simp⟩
    · split <;> exact ⟨by simp, by simp⟩
  | login email password =>
    simp only [AuthService.begin]
    split <;> exact ⟨by simp, by simp⟩
  | logout rawToken => exact ⟨by simp [AuthService.begin], by simp [AuthService.begin]⟩
  | authenticate rawToken =>
    cases rawToken with
    | none => exact ⟨by simp [AuthService.begin], by simp [AuthService.begin]⟩
    | some rawToken =>
      simp only [AuthService.begin]
      split_ifs <;> exact ⟨by simp, by simp⟩

/-- An await that is executed opens a session where that is what is awaited. -/
theorem executed_opens (k : κ) (pc : AuthPc) (answer : AuthAnswer) :
    (executed k pc answer).filterMap opens = [] ∨ ∃ user token session, pc = .opening user token session ∧
      answer = .unit ∧ executed k pc answer = [opened k token session] := by
  unfold executed
  split
  · exact .inl rfl
  · exact .inr ⟨_, _, _, rfl, rfl, rfl⟩
  all_goals exact .inl rfl

/-- The events of an await are its call's, and none starts it. -/
theorem executed_callers (k : κ) (pc : AuthPc) (answer : AuthAnswer) :
    ∀ e ∈ executed k pc answer, e.caller = k ∧ e.starts = false := by
  unfold executed
  split <;> simp [caller, starts]

/-- A call that goes on opens no session; its events are its own, and none starts it. -/
theorem resumed_callers (k : κ) (now : Time) (pc pc' : AuthPc) :
    (resumed k now pc pc').filterMap opens = [] ∧ ∀ e ∈ resumed k now pc pc', e.caller = k ∧ e.starts = false := by
  unfold resumed
  split <;> simp [caller, opens, starts]

/-- A call that goes on comes to open a session with the token that it draws, and from there to its end. -/
theorem resume_goes (settings : AccountSettings) (token : String) (now : Time) (pc : AuthPc) (answer : AuthAnswer) :
    AuthService.resume settings token now pc answer ≠ .idle ∧
      (∀ user t session, AuthService.resume settings token now pc answer = .opening user t session → t = token) ∧
      ((∃ user t session, pc = .opening user t session) ∨ (∃ outcome, pc = .done outcome) →
        ∃ outcome, AuthService.resume settings token now pc answer = .done outcome) := by
  unfold AuthService.resume
  split
  all_goals first
    | exact ⟨by simp, by simp, by simp⟩
    | exact ⟨by simp [AuthService.issueSession], by simp [AuthService.issueSession], by simp⟩
    | split_ifs <;> exact ⟨by simp, by simp, by simp⟩

/-! ## What a call makes of its request -/

/-- The awaits and the ends of a signup or a login. -/
def AuthPc.signs : AuthPc → Bool
  | .hashing _ _ | .creating _ _ _ | .fetching _ _ | .verifying _ _ | .equalizing _ | .opening _ _ _ => true
  | .done (.signedIn _ _) | .done (.raised _) => true
  | _ => false

/-- Where a call stands that was asked for a request. -/
def AuthRequest.Follows (journal : List (AuthEvent κ)) (k : κ) : AuthRequest → AuthCall → Prop
  | .signup _ _, call | .login _ _, call => call.pc.signs = true
  | .logout token, call => call.pc = .revoking token ∧ (call.answer = some .unit → revoked k token ∈ journal) ∨
    call.pc = .done .loggedOut ∧ revoked k token ∈ journal ∨ ∃ error, call.pc = .done (.raised error)
  | .authenticate none, call => call.pc = .done (.resolved none)
  | .authenticate (some token), call => call.pc = .looking token ∨
    (∃ checkedAt session, call.pc = .resolving token checkedAt session) ∨
    (∃ user, call.pc = .done (.resolved user) ∧ ∀ u ∈ user, ∃ now, answered k token now (some u) ∈ journal) ∨
    ∃ error, call.pc = .done (.raised error)

section Follows

variable {journal : List (AuthEvent κ)} {k : κ} {request : AuthRequest} {call : AuthCall}

/-- More events change nothing about it. -/
theorem AuthRequest.Follows.append (events : List (AuthEvent κ)) (h : request.Follows journal k call) :
    request.Follows (events ++ journal) k call := by
  cases request with
  | signup | login => exact h
  | logout token =>
    rcases h with ⟨hpc, hrevoked⟩ | ⟨hpc, hrevoked⟩ | herror
    · exact .inl ⟨hpc, fun hanswer => List.mem_append_right _ (hrevoked hanswer)⟩
    · exact .inr (.inl ⟨hpc, List.mem_append_right _ hrevoked⟩)
    · exact .inr (.inr herror)
  | authenticate token =>
    cases token with
    | none => exact h
    | some token =>
      rcases h with hpc | hpc | ⟨user, hpc, hanswered⟩ | herror
      · exact .inl hpc
      · exact .inr (.inl hpc)
      · refine .inr (.inr (.inl ⟨user, hpc, fun u hu => ?_⟩))
        obtain ⟨now, hmem⟩ := hanswered u hu
        exact ⟨now, List.mem_append_right _ hmem⟩
      · exact .inr (.inr (.inr herror))

/-- A call that was asked for something was called. -/
theorem AuthRequest.Follows.not_idle (h : request.Follows journal k call) : call.pc ≠ .idle := by
  intro hidle
  cases request with
  | signup | login =>
    rw [AuthRequest.Follows, hidle] at h
    contradiction
  | logout token => simp [AuthRequest.Follows, hidle] at h
  | authenticate token => cases token <;> simp [AuthRequest.Follows, hidle] at h

/-- A call begins as it was asked. -/
theorem AuthRequest.follows_begin (lower : String → String) (settings : AccountSettings)
    (journal : List (AuthEvent κ)) (k : κ) (request : AuthRequest) :
    request.Follows journal k ⟨AuthService.begin lower settings request, none⟩ := by
  cases request with
  | signup email password =>
    simp only [AuthRequest.Follows, AuthService.begin]
    split
    · rfl
    · split <;> rfl
  | login email password =>
    simp only [AuthRequest.Follows, AuthService.begin]
    split <;> rfl
  | logout token => exact .inl ⟨rfl, fun h => by contradiction⟩
  | authenticate token =>
    cases token with
    | none => rfl
    | some token =>
      by_cases hempty : token = ""
      · refine .inr (.inr (.inl ⟨none, ?_, fun u hu => by contradiction⟩))
        simp only [AuthService.begin, if_pos hempty]
      · refine .inl ?_
        simp only [AuthService.begin, if_neg hempty]

/-- The await of a call is executed. -/
theorem AuthRequest.Follows.executed (h : request.Follows journal k call) (hawaits : call.pc.awaits = true)
    (answer : AuthAnswer) :
    request.Follows (AuthEvent.executed k call.pc answer ++ journal) k ⟨call.pc, some answer⟩ := by
  have happend := h.append (AuthEvent.executed k call.pc answer)
  cases request with
  | signup | login => exact happend
  | logout token =>
    rcases h with ⟨hpc, -⟩ | ⟨hpc, -⟩ | ⟨error, hpc⟩
    · rw [hpc]
      refine .inl ⟨rfl, fun hanswer => ?_⟩
      rw [Option.some.inj hanswer]
      exact List.mem_cons_self
    · rw [hpc] at hawaits
      contradiction
    · rw [hpc] at hawaits
      contradiction
  | authenticate token => cases token <;> exact happend

/-- A call goes on with the answer of its await. -/
theorem AuthRequest.Follows.resumed {answer : AuthAnswer} (h : request.Follows journal k call)
    (hanswer : call.answer = some answer) (hrest : ∀ outcome, call.pc ≠ .done outcome) (settings : AccountSettings)
    (token : String) (now : Time) :
    request.Follows (AuthEvent.resumed k now call.pc (AuthService.resume settings token now call.pc answer) ++ journal)
      k ⟨AuthService.resume settings token now call.pc answer, none⟩ := by
  cases request with
  | signup | login =>
    change (AuthService.resume settings token now call.pc answer).signs = true
    have hsigns : call.pc.signs = true := h
    generalize call.pc = pc at hsigns
    unfold AuthService.resume AuthService.issueSession
    split <;> first | rfl | contradiction
  | logout t =>
    rcases h with ⟨hpc, hrevoked⟩ | ⟨hpc, -⟩ | ⟨error, hpc⟩
    · rw [hpc]
      cases answer with
      | unit => exact .inr (.inl ⟨rfl, List.mem_append_right _ (hrevoked hanswer)⟩)
      | _ => exact .inr (.inr ⟨_, rfl⟩)
    · exact absurd hpc (hrest _)
    · exact absurd hpc (hrest _)
  | authenticate t =>
    cases t with
    | none => exact absurd h (hrest _)
    | some t =>
      rcases h with hpc | ⟨checkedAt, session, hpc⟩ | ⟨user, hpc, -⟩ | ⟨error, hpc⟩
      · rw [hpc]
        cases answer with
        | session found =>
          cases found with
          | none => exact .inr (.inr (.inl ⟨none, rfl, fun u hu => by contradiction⟩))
          | some session =>
            by_cases hexpired : session.expiresAt ≤ now
            · refine .inr (.inr (.inl ⟨none, ?_, fun u hu => by contradiction⟩))
              simp only [AuthService.resume, if_pos hexpired]
            · refine .inr (.inl ⟨now, session, ?_⟩)
              simp only [AuthService.resume, if_neg hexpired]
        | _ => exact .inr (.inr (.inr ⟨_, rfl⟩))
      · rw [hpc]
        cases answer with
        | user user =>
          refine .inr (.inr (.inl ⟨user, rfl, fun u hu => ⟨checkedAt, ?_⟩⟩))
          rw [Option.mem_def.mp hu]
          exact List.mem_cons_self
        | _ => exact .inr (.inr (.inr ⟨_, rfl⟩))
      · exact absurd hpc (hrest _)
      · exact absurd hpc (hrest _)

/-- The await of a call fails. -/
theorem AuthRequest.Follows.failed (h : request.Follows journal k call) (hawaits : call.pc.awaits = true) :
    request.Follows journal k ⟨.done (.raised .unavailable), none⟩ := by
  cases request with
  | signup | login => rfl
  | logout token => exact .inr (.inr ⟨_, rfl⟩)
  | authenticate token =>
    cases token with
    | none =>
      have hpc : call.pc = .done (.resolved none) := h
      rw [hpc] at hawaits
      contradiction
    | some token => exact .inr (.inr (.inr ⟨_, rfl⟩))

end Follows

section System

variable [DecidableEq κ] {lower : String → String} {settings : AccountSettings} {hasher : PasswordHasher}

/-- The token that a step brings along. -/
def AuthStep.draws : AuthStep κ → Option String
  | .resume _ token => some token
  | _ => none

variable (lower settings hasher) in
/-- A step moves one call, or the clock. -/
theorem AuthSys.goes_of_allowed {s : AuthSys κ} {i : AuthStep κ} (h : s.allowed i) :
    ((exec lower settings hasher i s).calls = s.calls ∧ (exec lower settings hasher i s).journal = s.journal) ∨
      ∃ k call events, (exec lower settings hasher i s).calls = Function.update s.calls k call ∧
        (exec lower settings hasher i s).journal = events ++ s.journal ∧
        (s.calls k).Goes k call i.draws events := by
  cases i with
  | clock now => exact .inl ⟨rfl, rfl⟩
  | start k request =>
    have hidle : (s.calls k).pc = .idle := h
    obtain ⟨hbegun, hopening⟩ := begin_ne_idle_opening lower settings request
    refine .inr ⟨k, _, _, rfl, rfl, hbegun, by simp [caller], .inr ⟨hidle, request, rfl⟩, ?_, .inl rfl, ?_,
      fun _ _ => rfl⟩
    · exact fun user token session hpc => absurd hpc (hopening user token session)
    · rintro (⟨user, token, session, hpc, -⟩ | ⟨outcome, hpc⟩) <;> simp [hidle] at hpc
  | execute k salt id createdAt =>
    obtain ⟨hawaits, hanswer⟩ := h
    have hevents := executed_callers k (s.calls k).pc
      (AuthService.execute hasher salt id createdAt s.tables (s.calls k).pc).1
    refine .inr ⟨k, _, _, rfl, rfl, ?_, fun e he => (hevents e he).1, .inl fun e he => (hevents e he).2,
      fun _ _ _ hpc => .inl hpc, ?_, ?_, ?_⟩
    · intro hidle
      rw [show (s.calls k).pc = .idle from hidle] at hawaits
      contradiction
    · obtain hnone | ⟨user, token, session, hpc, hunit, hevents⟩ := executed_opens k (s.calls k).pc
        (AuthService.execute hasher salt id createdAt s.tables (s.calls k).pc).1
      · exact .inl hnone
      · exact .inr ⟨user, token, session, hpc, hanswer, .inl ⟨user, token, session, hpc, rfl⟩, hevents⟩
    · rintro (⟨user, token, session, -, hsome⟩ | ⟨outcome, hpc⟩)
      · rw [hanswer] at hsome
        contradiction
      · rw [hpc] at hawaits
        contradiction
    · intro outcome hpc
      rw [show (s.calls k).pc = .done outcome from hpc] at hawaits
      contradiction
  | resume k token =>
    obtain ⟨answer, hanswer⟩ := Option.isSome_iff_exists.mp (show (s.calls k).answer.isSome = true from h)
    obtain ⟨hbegun, hdrawn, hdone⟩ := resume_goes settings token s.now (s.calls k).pc answer
    obtain ⟨hopens, hcallers⟩ := resumed_callers k s.now (s.calls k).pc
      (AuthService.resume settings token s.now (s.calls k).pc answer)
    refine .inr ⟨k, ⟨AuthService.resume settings token s.now (s.calls k).pc answer, none⟩, _, ?_, ?_, hbegun,
      fun e he => (hcallers e he).1, .inl fun e he => (hcallers e he).2, fun user t session hpc => ?_, .inl hopens,
      ?_, fun _ _ => rfl⟩
    · simp only [exec, hanswer, set_calls]
    · simp only [exec, hanswer, set_journal]
    · rw [hdrawn user t session hpc]
      exact .inr rfl
    · rintro (⟨user, t, session, hpc, -⟩ | ⟨outcome, hpc⟩)
      · exact .inr (hdone (.inl ⟨user, t, session, hpc⟩))
      · exact .inr (hdone (.inr ⟨outcome, hpc⟩))
  | fail k =>
    refine .inr ⟨k, _, [], rfl, rfl, by simp, by simp, .inl (by simp), by simp, .inl rfl, fun _ => .inr ⟨_, rfl⟩,
      fun _ _ => rfl⟩

/-! ## The service with its draws -/

/-- The account service, and the tokens that were drawn so far. -/
structure DrawSys (κ : Type*) where
  auth : AuthSys κ
  drawn : List String

variable (lower settings hasher) in
/-- The service as a machine, in which no token is drawn again. -/
def drawMachine : Machine (DrawSys κ) (AuthStep κ) where
  init s := (AuthSys.machine lower settings hasher).init s.auth ∧ s.drawn = []
  allowed s i := s.auth.allowed i ∧ ∀ token ∈ i.draws, token ∉ s.drawn
  exec i s := ⟨AuthSys.exec lower settings hasher i s.auth, i.draws.toList ++ s.drawn⟩

namespace DrawSys

/-- Where a step can be taken is computed. -/
instance (s : DrawSys κ) (i : AuthStep κ) : Decidable ((drawMachine lower settings hasher).allowed s i) :=
  inferInstanceAs (Decidable (s.auth.allowed i ∧ ∀ token ∈ i.draws, token ∉ s.drawn))

variable {s s' : DrawSys κ}

/-- A call has drawn a token for its session. -/
def Holds (s : DrawSys κ) (k : κ) (token : String) : Prop :=
  (∃ user session, (s.auth.calls k).pc = .opening user token session) ∨
    ∃ session, opened k token session ∈ s.auth.journal

/-- The invariant: a token has one call, and one session. -/
structure Inv (lower : String → String) (settings : AccountSettings) (hasher : PasswordHasher) (s : DrawSys κ) :
    Prop where
  reach : (AuthSys.machine lower settings hasher).Reach s.auth
  drawn : ∀ k token, s.Holds k token → token ∈ s.drawn
  unique : ∀ k k' token, s.Holds k token → s.Holds k' token → k = k'
  past : ∀ k token session, opened k token session ∈ s.auth.journal → (s.auth.calls k).Past
  once : (s.auth.journal.filterMap opens).Nodup
  begun : ∀ e ∈ s.auth.journal, (s.auth.calls e.caller).pc ≠ .idle
  rest : ∀ k outcome, (s.auth.calls k).pc = .done outcome → (s.auth.calls k).answer = none
  /-- The events of a call come after its start. -/
  first : s.auth.journal.Pairwise fun e e' => e.starts = true → e'.caller ≠ e.caller

/-! ### One call moves -/

/-- A step of one call. -/
structure Moves (s s' : DrawSys κ) (k : κ) (call : AuthCall) (draws : Option String) (events : List (AuthEvent κ)) :
    Prop where
  calls : s'.auth.calls = Function.update s.auth.calls k call
  journal : s'.auth.journal = events ++ s.auth.journal
  goes : (s.auth.calls k).Goes k call draws events

section Moves

variable {k : κ} {call : AuthCall} {draws : Option String} {events : List (AuthEvent κ)}

/-- A session that is opened now is opened by the call that moves, which was about to. -/
theorem Moves.opened (hm : s.Moves s' k call draws events) {k' : κ} {token : String} {session : Session}
    (h : AuthEvent.opened k' token session ∈ events) :
    k' = k ∧ (∃ user, (s.auth.calls k).pc = .opening user token session) ∧ call.Past := by
  rcases hm.goes.opened with hnone | ⟨user, t, σ, hpc, -, hpast, hevents⟩
  · have hopens : token ∈ events.filterMap opens := mem_opens.mpr ⟨k', session, h⟩
    rw [hnone] at hopens
    contradiction
  · rw [hevents] at h
    obtain ⟨rfl, rfl, rfl⟩ := opened.inj (List.mem_singleton.mp h)
    exact ⟨rfl, ⟨user, hpc⟩, hpast⟩

/-- A call that moves holds no more than it did, and what it draws. -/
theorem Moves.holds (hm : s.Moves s' k call draws events) {k' : κ} {token : String} (h : s'.Holds k' token) :
    s.Holds k' token ∨ k' = k ∧ draws = some token := by
  rcases h with ⟨user, session, hpc⟩ | ⟨session, hmem⟩
  · rw [hm.calls] at hpc
    by_cases hk : k' = k
    · subst hk
      rw [Function.update_self] at hpc
      rcases hm.goes.drawn user token session hpc with hold | hdraw
      · exact .inl (.inl ⟨user, session, hold⟩)
      · exact .inr ⟨rfl, hdraw⟩
    · rw [Function.update_of_ne hk] at hpc
      exact .inl (.inl ⟨user, session, hpc⟩)
  · rw [hm.journal] at hmem
    rcases List.mem_append.mp hmem with hnew | hold
    · obtain ⟨rfl, ⟨user, hpc⟩, -⟩ := hm.opened hnew
      exact .inl (.inl ⟨user, session, hpc⟩)
    · exact .inl (.inr ⟨session, hold⟩)

/-- Who has opened a session is past that. -/
theorem Inv.past_moves (h : s.Inv lower settings hasher) (hm : s.Moves s' k call draws events) {k' : κ}
    {token : String} {session : Session} (hmem : AuthEvent.opened k' token session ∈ s'.auth.journal) :
    (s'.auth.calls k').Past := by
  rw [hm.calls]
  rw [hm.journal] at hmem
  by_cases hk : k' = k
  · subst hk
    rw [Function.update_self]
    rcases List.mem_append.mp hmem with hnew | hold
    · exact (hm.opened hnew).2.2
    · exact hm.goes.past (h.past k' token session hold)
  · rw [Function.update_of_ne hk]
    rcases List.mem_append.mp hmem with hnew | hold
    · exact absurd (hm.opened hnew).1 hk
    · exact h.past k' token session hold

/-- No token has two sessions: the call that opens one has not done so before, and no other call holds its token. -/
theorem Inv.once_moves (h : s.Inv lower settings hasher) (hm : s.Moves s' k call draws events) :
    (s'.auth.journal.filterMap opens).Nodup := by
  rw [hm.journal, List.filterMap_append]
  rcases hm.goes.opened with hnone | ⟨user, token, session, hpc, hanswer, -, hevents⟩
  · rw [hnone]
    exact h.once
  · rw [hevents]
    refine List.nodup_cons.mpr ⟨fun hmem => ?_, h.once⟩
    obtain ⟨k', session', hold⟩ := mem_opens.mp hmem
    obtain rfl := h.unique k k' token (.inl ⟨user, session, hpc⟩) (.inr ⟨session', hold⟩)
    rcases h.past k token session' hold with ⟨_, _, _, -, hsome⟩ | ⟨outcome, hdone⟩
    · rw [hanswer] at hsome
      contradiction
    · rw [hpc] at hdone
      contradiction

/-- Who has events was called. -/
theorem Inv.begun_moves (h : s.Inv lower settings hasher) (hm : s.Moves s' k call draws events) {e : AuthEvent κ}
    (he : e ∈ s'.auth.journal) : (s'.auth.calls e.caller).pc ≠ .idle := by
  rw [hm.calls]
  rw [hm.journal] at he
  by_cases hk : e.caller = k
  · rw [hk, Function.update_self]
    exact hm.goes.begun
  · rw [Function.update_of_ne hk]
    rcases List.mem_append.mp he with hnew | hold
    · exact absurd (hm.goes.callers e hnew) hk
    · exact h.begun e hold

/-- Who is over awaits nothing. -/
theorem Inv.rest_moves (h : s.Inv lower settings hasher) (hm : s.Moves s' k call draws events) {k' : κ}
    {outcome : AuthOutcome} (hpc : (s'.auth.calls k').pc = .done outcome) : (s'.auth.calls k').answer = none := by
  rw [hm.calls] at hpc ⊢
  by_cases hk : k' = k
  · subst hk
    rw [Function.update_self] at hpc ⊢
    exact hm.goes.rest outcome hpc
  · rw [Function.update_of_ne hk] at hpc ⊢
    exact h.rest k' outcome hpc

/-- Whoever starts has no events yet. -/
theorem Inv.first_moves (h : s.Inv lower settings hasher) (hm : s.Moves s' k call draws events) :
    s'.auth.journal.Pairwise fun e e' => e.starts = true → e'.caller ≠ e.caller := by
  rw [hm.journal]
  rcases hm.goes.starts with hnone | ⟨hidle, request, hevents⟩
  · have hfalse : ∀ e ∈ events, ∀ e' : AuthEvent κ, e.starts = true → e'.caller ≠ e.caller := by
      intro e he e' htrue
      rw [hnone e he] at htrue
      contradiction
    exact List.pairwise_append.mpr ⟨List.pairwise_of_forall_mem_list fun e he e' _ => hfalse e he e', h.first,
      fun e he e' _ => hfalse e he e'⟩
  · rw [hevents]
    refine List.pairwise_cons.mpr ⟨fun e he _ hcaller => h.begun e he ?_, h.first⟩
    rw [hcaller]
    exact hidle

/-- A step of one call keeps the invariant, if what it draws is new. -/
theorem Inv.moves (h : s.Inv lower settings hasher) (hm : s.Moves s' k call draws events)
    (hreach : (AuthSys.machine lower settings hasher).Reach s'.auth) (hdrawn : s'.drawn = draws.toList ++ s.drawn)
    (hfresh : ∀ token ∈ draws, token ∉ s.drawn) : s'.Inv lower settings hasher := by
  refine ⟨hreach, fun k' token hk => ?_, fun k₁ k₂ token h₁ h₂ => ?_, fun _ _ _ => h.past_moves hm, h.once_moves hm,
    fun _ => h.begun_moves hm, fun _ _ => h.rest_moves hm, h.first_moves hm⟩
  · rw [hdrawn]
    rcases hm.holds hk with hold | ⟨-, hdraw⟩
    · exact List.mem_append_right _ (h.drawn k' token hold)
    · exact List.mem_append_left _ (Option.mem_toList.mpr hdraw)
  · -- A token that is drawn now was held by nobody.
    have hnew : ∀ k', draws = some token → ¬ s.Holds k' token := fun k' hdraw hold =>
      hfresh token hdraw (h.drawn k' token hold)
    rcases hm.holds h₁ with hold₁ | ⟨rfl, hdraw₁⟩ <;> rcases hm.holds h₂ with hold₂ | ⟨rfl, hdraw₂⟩
    · exact h.unique k₁ k₂ token hold₁ hold₂
    · exact absurd hold₁ (hnew k₁ hdraw₂)
    · exact absurd hold₂ (hnew k₂ hdraw₁)
    · rfl

end Moves

/-- A step that moves no call keeps the invariant. -/
theorem Inv.frame (h : s.Inv lower settings hasher)
    (hreach : (AuthSys.machine lower settings hasher).Reach s'.auth) (hdrawn : s.drawn ⊆ s'.drawn)
    (hcalls : s'.auth.calls = s.auth.calls) (hjournal : s'.auth.journal = s.auth.journal) :
    s'.Inv lower settings hasher := by
  have hholds : ∀ k token, s'.Holds k token → s.Holds k token := by
    intro k token hk
    unfold Holds at hk
    rwa [hcalls, hjournal] at hk
  refine ⟨hreach, fun k token hk => hdrawn (h.drawn k token (hholds k token hk)),
    fun k k' token hk hk' => h.unique k k' token (hholds k token hk) (hholds k' token hk'), ?_, ?_, ?_, ?_, ?_⟩
  · rw [hcalls, hjournal]
    exact h.past
  · rw [hjournal]
    exact h.once
  · rw [hcalls, hjournal]
    exact h.begun
  · rw [hcalls]
    exact h.rest
  · rw [hjournal]
    exact h.first

/-- Every step keeps the invariant. -/
theorem Inv.exec (h : s.Inv lower settings hasher) {i : AuthStep κ}
    (ha : (drawMachine lower settings hasher).allowed s i) :
    ((drawMachine lower settings hasher).exec i s).Inv lower settings hasher := by
  obtain ⟨hallowed, hfresh⟩ := ha
  have hreach := h.reach.step (M := AuthSys.machine lower settings hasher) i hallowed
  rcases AuthSys.goes_of_allowed lower settings hasher hallowed with
    ⟨hcalls, hjournal⟩ | ⟨k, call, events, hcalls, hjournal, hgoes⟩
  · exact h.frame hreach (List.subset_append_right _ _) hcalls hjournal
  · exact h.moves ⟨hcalls, hjournal, hgoes⟩ hreach rfl hfresh

/-- The invariant holds in every run. -/
theorem inv (h : (drawMachine lower settings hasher).Reach s) : s.Inv lower settings hasher := by
  refine h.invariant (P := fun s => s.Inv lower settings hasher) ?_ fun s i _ hs ha => hs.exec ha
  rintro s ⟨hinit, -⟩
  have hjournal := hinit.2.1
  have hholds : ∀ k token, ¬ s.Holds k token := by
    rintro k token (⟨user, session, hpc⟩ | ⟨session, hmem⟩)
    · rw [hinit.2.2 k] at hpc
      contradiction
    · rw [hjournal] at hmem
      contradiction
  refine ⟨.init hinit, fun k token hk => absurd hk (hholds k token),
    fun k _ token hk => absurd hk (hholds k token), fun k token session hmem => ?_, ?_, fun e he => ?_,
    fun k outcome hpc => ?_, ?_⟩
  · rw [hjournal] at hmem
    contradiction
  · rw [hjournal]
    exact List.nodup_nil
  · rw [hjournal] at he
    contradiction
  · rw [hinit.2.2 k] at hpc
    contradiction
  · rw [hjournal]
    exact List.Pairwise.nil

/-- A call that is over stays as it is. -/
theorem Inv.done_exec (h : s.Inv lower settings hasher) {i : AuthStep κ}
    (ha : (drawMachine lower settings hasher).allowed s i) {k : κ} {outcome : AuthOutcome}
    (hdone : (s.auth.calls k).pc = .done outcome) :
    (((drawMachine lower settings hasher).exec i s).auth.calls k).pc = .done outcome := by
  have hallowed : s.auth.allowed i := ha.1
  have hkept : ∀ k' call events, k' ≠ k → ((s.auth.set k' call events).calls k).pc = .done outcome := by
    intro k' call events hk
    rw [AuthSys.set_calls, Function.update_of_ne hk.symm, hdone]
  change ((AuthSys.exec lower settings hasher i s.auth).calls k).pc = .done outcome
  cases i with
  | clock now => exact hdone
  | start k' request =>
    refine hkept k' _ _ ?_
    rintro rfl
    rw [show (s.auth.calls k').pc = .idle from hallowed] at hdone
    contradiction
  | execute k' salt id createdAt =>
    refine hkept k' _ [] ?_
    rintro rfl
    have hawaits : (s.auth.calls k').pc.awaits = true := hallowed.1
    rw [hdone] at hawaits
    contradiction
  | resume k' token =>
    obtain ⟨answer, hanswer⟩ := Option.isSome_iff_exists.mp (show (s.auth.calls k').answer.isSome = true from hallowed)
    simp only [AuthSys.exec, hanswer]
    refine hkept k' _ _ ?_
    rintro rfl
    rw [h.rest k' outcome hdone] at hanswer
    contradiction
  | fail k' =>
    refine hkept k' _ _ ?_
    rintro rfl
    have hawaits : (s.auth.calls k').pc.awaits = true := hallowed
    rw [hdone] at hawaits
    contradiction

/-! ### What a token stands for -/

/-- A token has one session. -/
theorem Inv.opened_unique (h : s.Inv lower settings hasher) {k k' : κ} {token : String} {session session' : Session}
    (hopened : opened k token session ∈ s.auth.journal) (hopened' : opened k' token session' ∈ s.auth.journal) :
    k = k' ∧ session = session' := by
  obtain ⟨rfl, -, rfl⟩ := opened.inj (eq_of_nodup_filterMap h.once hopened hopened' rfl rfl)
  exact ⟨rfl, rfl⟩

/-- A token that resolves to an account is one of its sessions. -/
theorem Inv.session_of_answered (h : s.Inv lower settings hasher) (hfree : CollisionFree s.auth.journal) {k : κ}
    {token : String} {now : Time} {user : User} (hanswered : answered k token now (some user) ∈ s.auth.journal) :
    ∃ k' session, opened k' token session ∈ s.auth.journal ∧
      (accountOf s.auth.journal session.userId).map StoredUser.toPublic = some user := by
  obtain ⟨newer, older, hsplit⟩ := List.append_of_mem hanswered
  obtain ⟨between, before, rfl, huser⟩ := AuthSys.authenticate_exact h.reach hsplit hfree
  obtain ⟨session, hsession, hresolved⟩ := Option.bind_eq_some_iff.mp huser.symm
  split_ifs at hresolved with hexpired
  obtain ⟨stored, hstored, rfl⟩ := Option.map_eq_some_iff.mp hresolved
  obtain ⟨e, he, hwrite⟩ := List.mem_filterMap.mp (mem_of_latest hsession)
  have hjournal : s.auth.journal =
      (newer ++ answered k token now (some stored.toPublic) :: (between ++ [looked k token])) ++ before := by
    rw [hsplit]
    simp
  cases e with
  | opened k' t σ =>
    obtain ⟨rfl, hσ⟩ := Prod.mk.inj (Option.some.inj hwrite)
    obtain rfl := Option.some.inj hσ
    refine ⟨k', σ, ?_, ?_⟩
    · rw [hjournal]
      exact List.mem_append_right _ he
    · rw [hjournal, accountOf_append _ hstored]
      rfl
  | revoked k' t =>
    obtain ⟨-, hσ⟩ := Prod.mk.inj (Option.some.inj hwrite)
    contradiction
  | _ => contradiction

/-- Whoever a token resolves to is who it was handed out to. -/
theorem Inv.resolved_as_signedIn (h : s.Inv lower settings hasher) (hfree : CollisionFree s.auth.journal) {k k' : κ}
    {token : String} {now : Time} {user user' : User}
    (hanswered : answered k token now (some user) ∈ s.auth.journal)
    (hsigned : (s.auth.calls k').pc = .done (.signedIn user' token)) : user = user' := by
  obtain ⟨k'', session, hopened, huser⟩ := h.session_of_answered hfree hanswered
  have hinv := AuthSys.inv h.reach
  have hsound := (hinv.calls k').1
  rw [hsigned] at hsound
  obtain ⟨session', hopened', hid, stored, rfl, creator, password, hregistered, -⟩ := hsound
  obtain ⟨-, rfl⟩ := h.opened_unique hopened hopened'
  have hstored : accountOf s.auth.journal stored.id = some stored := by
    rw [← hinv.users]
    exact (hinv.registered creator stored password hregistered.1).1
  rw [hid, show stored.toPublic.id = stored.id from rfl, hstored] at huser
  exact (Option.some.inj huser).symm

/-- Whoever comes with a token when it is over is nobody. -/
theorem Inv.nobody_of_over (h : s'.Inv lower settings hasher) (hfree : CollisionFree s'.auth.journal)
    {journal events : List (AuthEvent κ)} (hjournal : s'.auth.journal = events ++ journal) {token : String}
    (hover : Over journal token) {k : κ} (hlater : ∀ e ∈ journal, e.caller ≠ k) {now : Time} {user : Option User}
    (hanswered : answered k token now user ∈ s'.auth.journal) : user = none := by
  obtain ⟨newer, older, hsplit⟩ := List.append_of_mem hanswered
  obtain ⟨between, before, rfl, rfl⟩ := AuthSys.authenticate_exact h.reach hsplit hfree
  have hall : (newer ++ answered k token now (resolution before token now) :: between) ++ looked k token :: before =
      events ++ journal := by
    rw [← hjournal, hsplit]
    simp
  -- The session was selected after the token was over.
  obtain ⟨rest, hrest⟩ : ∃ rest, before = rest ++ journal := by
    rcases List.append_eq_append_iff.mp hall with ⟨rest, -, hcut⟩ | ⟨rest, -, hcut⟩
    · cases rest with
      | nil =>
        have hlooked : looked k token ∈ journal := by
          rw [← List.nil_append journal, ← hcut]
          exact List.mem_cons_self
        exact absurd rfl (hlater _ hlooked)
      | cons e rest => exact ⟨rest, (List.cons.inj hcut).2⟩
    · have hlooked : looked k token ∈ journal := by
        rw [hcut]
        exact List.mem_append_right _ List.mem_cons_self
      exact absurd rfl (hlater _ hlooked)
  have honce : ((rest ++ journal).filterMap opens).Nodup := by
    rw [← hrest]
    refine h.once.sublist (List.Sublist.filterMap opens ?_)
    rw [hjournal, ← hall]
    exact (List.sublist_cons_self _ _).trans (List.sublist_append_right _ _)
  rw [hrest, resolution, (hover.append honce).2]
  rfl

/-! ### What a call makes of its request -/

/-- What was asked of a call shows in where it stands. -/
theorem Inv.follows_exec (h : s.Inv lower settings hasher) {i : AuthStep κ} (hallowed : s.auth.allowed i) {k : κ}
    {request : AuthRequest} (hf : request.Follows s.auth.journal k (s.auth.calls k)) :
    request.Follows (AuthSys.exec lower settings hasher i s.auth).journal k
      ((AuthSys.exec lower settings hasher i s.auth).calls k) := by
  -- A step of another call only adds events.
  have hother : ∀ k' call events, k' ≠ k →
      request.Follows (events ++ s.auth.journal) k ((s.auth.set k' call events).calls k) := by
    intro k' call events hk
    rw [AuthSys.set_calls, Function.update_of_ne hk.symm]
    exact hf.append events
  cases i with
  | clock now => exact hf
  | start k' asked =>
    refine hother k' _ _ ?_
    rintro rfl
    exact hf.not_idle hallowed
  | execute k' salt id createdAt =>
    by_cases hk : k' = k
    · subst hk
      change request.Follows _ k' (Function.update s.auth.calls k' _ k')
      rw [Function.update_self]
      exact hf.executed hallowed.1 _
    · exact hother k' _ _ hk
  | resume k' token =>
    obtain ⟨answer, hanswer⟩ := Option.isSome_iff_exists.mp (show (s.auth.calls k').answer.isSome = true from hallowed)
    simp only [AuthSys.exec, hanswer]
    by_cases hk : k' = k
    · subst hk
      have hrest : ∀ outcome, (s.auth.calls k').pc ≠ .done outcome := by
        intro outcome hpc
        rw [h.rest k' outcome hpc] at hanswer
        contradiction
      rw [AuthSys.set_calls, Function.update_self]
      exact hf.resumed hanswer hrest settings token s.auth.now
    · exact hother k' _ _ hk
  | fail k' =>
    by_cases hk : k' = k
    · subst hk
      change request.Follows _ k' (Function.update s.auth.calls k' _ k')
      rw [Function.update_self]
      exact hf.failed hallowed
    · exact hother k' _ [] hk

/-- What is asked of a call is asked when it starts. -/
theorem started_exec {i : AuthStep κ} {k : κ} {request : AuthRequest}
    (h : started k request ∈ (AuthSys.exec lower settings hasher i s.auth).journal) :
    started k request ∈ s.auth.journal ∨ i = .start k request := by
  cases i with
  | clock now => exact .inl h
  | start k' asked =>
    rcases List.mem_cons.mp h with heq | hold
    · obtain ⟨rfl, rfl⟩ := started.inj heq
      exact .inr rfl
    · exact .inl hold
  | execute k' salt id createdAt =>
    rcases List.mem_append.mp h with hnew | hold
    · have hfalse := (executed_callers _ _ _ _ hnew).2
      contradiction
    · exact .inl hold
  | resume k' token =>
    simp only [AuthSys.exec] at h
    split at h
    · exact .inl h
    · rcases List.mem_append.mp h with hnew | hold
      · have hfalse := ((resumed_callers _ _ _ _).2 _ hnew).2
        contradiction
      · exact .inl hold
  | fail k' => exact .inl h

/-- Every call stands where its request leads. -/
theorem follows (h : (drawMachine lower settings hasher).Reach s) {k : κ} {request : AuthRequest}
    (hasked : started k request ∈ s.auth.journal) : request.Follows s.auth.journal k (s.auth.calls k) := by
  refine h.invariant (P := fun s => ∀ k request, started k request ∈ s.auth.journal →
    request.Follows s.auth.journal k (s.auth.calls k)) ?_ ?_ k request hasked
  · intro s hinit k request hmem
    rw [hinit.1.2.1] at hmem
    contradiction
  · intro s i hreach hfollows ha k request hmem
    rcases started_exec hmem with hold | rfl
    · exact (inv hreach).follows_exec ha.1 (hfollows k request hold)
    · change request.Follows _ k (Function.update s.auth.calls k _ k)
      rw [Function.update_self]
      exact request.follows_begin lower settings _ k

/-- A call that was asked whose a token is, and knows, was answered. -/
theorem answered_of_resolved (h : (drawMachine lower settings hasher).Reach s) {k : κ} {token : String} {user : User}
    (hasked : started k (.authenticate (some token)) ∈ s.auth.journal)
    (hresolved : (s.auth.calls k).pc = .done (.resolved (some user))) :
    ∃ now, answered k token now (some user) ∈ s.auth.journal := by
  have hfollows := follows h hasked
  simp only [AuthRequest.Follows, hresolved] at hfollows
  simpa using hfollows

/-- The journal only grows. -/
theorem later_journal (h : (drawMachine lower settings hasher).Later s s') :
    ∃ events, s'.auth.journal = events ++ s.auth.journal := by
  induction h with
  | refl => exact ⟨[], rfl⟩
  | tail _ hstep ih =>
    obtain ⟨i, -, rfl⟩ := hstep
    obtain ⟨events, hevents⟩ := ih
    obtain ⟨more, hmore⟩ : ∃ more, (AuthSys.exec lower settings hasher i _).journal = more ++ _ :=
      AuthSys.exec_journal lower settings hasher i _
    exact ⟨more ++ events, hmore.trans (by rw [hevents, List.append_assoc])⟩

/-- A call that signed in has opened the session of its token. -/
theorem Inv.opened_of_signedIn (h : s.Inv lower settings hasher) {k : κ} {token : String} {user : User}
    (hsigned : (s.auth.calls k).pc = .done (.signedIn user token)) :
    ∃ session, opened k token session ∈ s.auth.journal := by
  have hsound := ((AuthSys.inv h.reach).calls k).1
  rw [hsigned] at hsound
  obtain ⟨session, hopened, -⟩ := hsound
  exact ⟨session, hopened⟩

/-- A token that was handed out before its logout is over once that has returned. -/
theorem over_of_loggedOut (h : (drawMachine lower settings hasher).Reach s) {newer older : List (AuthEvent κ)}
    {k k₀ : κ} {token : String} {session : Session}
    (hsplit : s.auth.journal = newer ++ started k (.logout token) :: older) (hopened : opened k₀ token session ∈ older)
    (hdone : (s.auth.calls k).pc = .done .loggedOut) : Over s.auth.journal token := by
  have hinv := inv h
  have hasked : started k (.logout token) ∈ s.auth.journal := by
    rw [hsplit]
    exact List.mem_append_right _ List.mem_cons_self
  have hfollows := follows h hasked
  simp only [AuthRequest.Follows, hdone] at hfollows
  have hrevoked : revoked k token ∈ newer ++ started k (.logout token) :: older := by
    rw [← hsplit]
    simpa using hfollows
  -- The logout deleted the session after it had started.
  have hfirst := hinv.first
  rw [hsplit] at hfirst
  obtain ⟨between, before, rfl⟩ : ∃ between before, newer = between ++ revoked k token :: before := by
    rcases List.mem_append.mp hrevoked with hnew | hold
    · exact List.append_of_mem hnew
    · rcases List.mem_cons.mp hold with heq | hold
      · contradiction
      · have hafter := (List.pairwise_cons.mp (List.pairwise_append.mp hfirst).2.1).1 (revoked k token) hold rfl
        exact absurd rfl hafter
  have hjournal : s.auth.journal = between ++ (revoked k token :: (before ++ started k (.logout token) :: older)) := by
    rw [hsplit]
    simp
  have honce := hinv.once
  rw [hjournal] at honce ⊢
  exact (over_of_revoked (List.mem_append_right _ (List.mem_cons_of_mem _ hopened))).append honce

/-- Whoever comes with a token after it is over is nobody. -/
theorem nobody_later (h : (drawMachine lower settings hasher).Reach s)
    (hlater : (drawMachine lower settings hasher).Later s s') {token : String} (hover : Over s.auth.journal token)
    (hfree : CollisionFree s'.auth.journal) {k : κ} (hidle : (s.auth.calls k).pc = .idle)
    (hasked : started k (.authenticate (some token)) ∈ s'.auth.journal) {user : Option User}
    (hresolved : (s'.auth.calls k).pc = .done (.resolved user)) : user = none := by
  have hreach := h.later hlater
  obtain ⟨events, hevents⟩ := later_journal hlater
  cases user with
  | none => rfl
  | some user =>
    obtain ⟨now, hanswered⟩ := answered_of_resolved hreach hasked hresolved
    refine (inv hreach).nobody_of_over hfree hevents hover ?_ hanswered
    rintro e he rfl
    exact (inv h).begun e he hidle

/-! ### The results -/

/-- What a token stands for: whatever calls interleave and fail, as long as no token is drawn twice, one signup or
login has it, and whoever presents it and is somebody is the account that this one signed in. -/
theorem token_one_account (h : (drawMachine lower settings hasher).Reach s) (hfree : CollisionFree s.auth.journal)
    {k : κ} {token : String} {user : User} (hsigned : (s.auth.calls k).pc = .done (.signedIn user token)) :
    (∀ k' user', (s.auth.calls k').pc = .done (.signedIn user' token) → k' = k) ∧
      ∀ k' user', started k' (.authenticate (some token)) ∈ s.auth.journal →
        (s.auth.calls k').pc = .done (.resolved (some user')) → user' = user := by
  have hinv := inv h
  constructor
  · intro k' user' hsigned'
    obtain ⟨session, hopened⟩ := hinv.opened_of_signedIn hsigned
    obtain ⟨session', hopened'⟩ := hinv.opened_of_signedIn hsigned'
    exact (hinv.opened_unique hopened' hopened).1
  · intro k' user' hasked hresolved
    obtain ⟨now, hanswered⟩ := answered_of_resolved h hasked hresolved
    exact hinv.resolved_as_signedIn hfree hanswered hsigned

/-- A signup, the resolution of its token, its logout, and its resolution again. -/
def sampleTokenRun : List (AuthStep ℕ) :=
  [.start 0 (.signup " ada@dibs.ca " "correct horse"), .execute 0 "salt" "" 0, .resume 0 "a", .execute 0 "" "ada" 0,
    .resume 0 "token", .execute 0 "" "" 0, .resume 0 "b",
    .start 1 (.authenticate (some "token")), .execute 1 "" "" 0, .resume 1 "c", .execute 1 "" "" 0, .resume 1 "d"]

/-- The logout. -/
def sampleLogoutRun : List (AuthStep ℕ) := [.start 2 (.logout "token"), .execute 2 "" "" 0, .resume 2 "e"]

/-- Its token again. -/
def sampleAgainRun : List (AuthStep ℕ) :=
  [.start 3 (.authenticate (some "token")), .execute 3 "" "" 0, .resume 3 "f"]

/-- The service of the sample. -/
abbrev sampleDraws : Machine (DrawSys ℕ) (AuthStep ℕ) :=
  drawMachine id AuthSys.sampleAccountSettings AuthSys.sampleHasher

/-- The service before the logout, after it, and at the end. -/
def sampleSigned : DrawSys ℕ := sampleDraws.final ⟨AuthSys.sampleAuth, []⟩ sampleTokenRun
def sampleLoggedOut : DrawSys ℕ := sampleDraws.final sampleSigned sampleLogoutRun
def sampleAgain : DrawSys ℕ := sampleDraws.final sampleLoggedOut sampleAgainRun

theorem sampleSigned_reach : sampleDraws.Reach sampleSigned := by
  have hinit : sampleDraws.init ⟨AuthSys.sampleAuth, []⟩ := ⟨⟨rfl, rfl, fun _ => rfl⟩, rfl⟩
  have hruns : sampleDraws.Runs ⟨AuthSys.sampleAuth, []⟩ sampleTokenRun := by decide +kernel
  exact (Machine.Reach.init hinit).final hruns

/-- One token has no collisions. -/
theorem collisionFree_of_tokens {journal : List (AuthEvent ℕ)} (h : ∀ t ∈ tokensOf journal, t = "token") :
    CollisionFree journal := by
  intro t ht t' ht' _
  rw [h t ht, h t' ht']

theorem token_one_account_sampleSigned :
    (∀ k' user', (sampleSigned.auth.calls k').pc = .done (.signedIn user' "token") → k' = 0) ∧
      ∀ k' user', started k' (.authenticate (some "token")) ∈ sampleSigned.auth.journal →
        (sampleSigned.auth.calls k').pc = .done (.resolved (some user')) → user' = ⟨"ada", "ada@dibs.ca", 0⟩ := by
  have hsigned : (sampleSigned.auth.calls 0).pc = .done (.signedIn ⟨"ada", "ada@dibs.ca", 0⟩ "token") := by
    decide +kernel
  exact token_one_account sampleSigned_reach (collisionFree_of_tokens (by decide +kernel)) hsigned

/-- Logout is final: once the logout of a token that was handed out before has returned, the table has no session under
the digest of the token, and whoever presents it is nobody, whatever calls interleave and fail, at any time. -/
theorem logout_final (h : (drawMachine lower settings hasher).Reach s) {newer older : List (AuthEvent κ)} {k k₀ : κ}
    {token : String} {session : Session} (hsplit : s.auth.journal = newer ++ started k (.logout token) :: older)
    (hopened : opened k₀ token session ∈ older) (hdone : (s.auth.calls k).pc = .done .loggedOut)
    (hlater : (drawMachine lower settings hasher).Later s s') (hfree : CollisionFree s'.auth.journal) :
    sessionOf s'.auth.journal token = none ∧ s'.auth.tables.sessions.get? (hashToken token) = none ∧
      ∀ k' user, (s.auth.calls k').pc = .idle → started k' (.authenticate (some token)) ∈ s'.auth.journal →
        (s'.auth.calls k').pc = .done (.resolved user) → user = none := by
  have hover := over_of_loggedOut h hsplit hopened hdone
  obtain ⟨events, hevents⟩ := later_journal hlater
  have hnone : sessionOf s'.auth.journal token = none := by
    have honce := (inv (h.later hlater)).once
    rw [hevents] at honce ⊢
    exact (hover.append honce).2
  have hoccurs : token ∈ tokensOf s'.auth.journal := by
    rw [hevents, hsplit]
    refine List.mem_filterMap.mpr ⟨opened k₀ token session, ?_, rfl⟩
    exact List.mem_append_right _ (List.mem_append_right _ (List.mem_cons_of_mem _ hopened))
  have hsessions := (AuthSys.inv (inv (h.later hlater)).reach).sessions {t | t ∈ tokensOf s'.auth.journal}
    (fun _ => id) hfree
  refine ⟨hnone, (hsessions token hoccurs).trans hnone, fun k' user hidle hasked hresolved => ?_⟩
  exact nobody_later h hlater hover hfree hidle hasked hresolved

theorem logout_final_sampleAgain : sessionOf sampleAgain.auth.journal "token" = none ∧
    sampleAgain.auth.tables.sessions.get? (hashToken "token") = none ∧
    ∀ k' user, (sampleLoggedOut.auth.calls k').pc = .idle →
      started k' (.authenticate (some "token")) ∈ sampleAgain.auth.journal →
        (sampleAgain.auth.calls k').pc = .done (.resolved user) → user = none := by
  have hsplit : sampleLoggedOut.auth.journal =
      [revoked 2 "token"] ++ started 2 (.logout "token") :: sampleSigned.auth.journal := by decide +kernel
  have hopened : opened 0 "token" ⟨hashToken "token", "ada", 0, 3600000000⟩ ∈ sampleSigned.auth.journal := by
    decide +kernel
  have hreach : sampleDraws.Reach sampleLoggedOut := sampleSigned_reach.final (by decide +kernel)
  have hlater : sampleDraws.Later sampleLoggedOut sampleAgain := .of_runs (by decide +kernel)
  exact logout_final hreach hsplit hopened (by decide +kernel) hlater (collisionFree_of_tokens (by decide +kernel))

end DrawSys

end System

end Dibs
