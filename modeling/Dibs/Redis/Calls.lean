import Dibs.Redis.Retention
import Dibs.Redis.View
import Dibs.Store.Rejections

/-!
# The calls of the Redis store, one script at a time

Any number of clients that call the methods of `RedisWatchRepository`, with any arguments and at any
clocks. A call is one script, but a cancellation and an expiry are three round trips each.

A script that turns its caller down writes nothing. The script of a cancellation that is put off writes the
whole sidecar that its caller has read, and it compares nothing but the revision: it sets
`cancel_requested` alone exactly when the stored sidecar is still the one that was read
(`CallSys.untouched_iff`). A permit and another cancellation leave it so, and so does every call of clients
that play by the rules (`CallSys.Lawful`); a marker that is repaired in between, at the same revision, does
not, and the cancellation takes the repair back.
-/

namespace Dibs

open Function (update)

/-! ## The machine -/

/-- A call of a repository method, answered unless its script fails, and the database that is left. -/
def Redis.call (db : Redis) (retention : Duration) (now : Time) : Op → Option Reply × Redis
  | .create watch runtime => (db.create watch runtime).map (some ∘ .create) id
  | .claim u w o lease ignoreSchedule =>
    (db.claimWindow now u w o lease ignoreSchedule).map (Option.map .claim) id
  | .begin c => (db.beginBooking now c).map (Option.map .begin) id
  | .commit c nw nr => (db.commitWindow retention now c nw nr).map (Option.map .commit) id
  | .cancel u => (db.cancelIfActive retention now u).map (some ∘ .transition) id
  | .expire u expected force =>
    (db.expireIfEligible retention now u expected force).map (some ∘ .transition) id
  | .release c => (db.releaseClaim c).map (Option.map .flag) id
  | .claimDispatch marker o lease => (db.claimDispatch now marker o lease).map (Option.map .dispatch) id
  | .markDispatched c after => (db.markDispatched now c after).map (Option.map .flag) id
  | .releaseDispatch c => (db.releaseDispatch c).map (Option.map .flag) id
  | .synthesize u runtime => (db.synthesizeMarker now u runtime).map (Option.map .flag) id
  | .cleanup now batchSize => (db.cleanupDue now batchSize).map (some ∘ .cleanup) id

/-- The calls that are one script. -/
def Op.OneTrip : Op → Prop
  | .cancel _ | .expire _ _ _ => False
  | _ => True

/-- The store and its clients. -/
structure CallSys where
  now : Time
  retention : Duration
  db : Redis
  /-- The cancellations and expiries. -/
  clients : ℕ → Client
  /-- The ids of the watches that were to be created so far. -/
  used : List String
  /-- The claims handed out so far. -/
  issued : List WindowClaim

/-- What can happen next. -/
inductive CallLabel
  /-- The next call is made at another instant, perhaps of another clock. -/
  | clock (now : Time)
  /-- Time passes at the server. -/
  | elapse (ms : ℤ)
  /-- A key goes whose time to live has run out. -/
  | fire (key : RedisKey)
  | call (op : Op)
  | delete (watchId : String)
  | prune (watchId : String) (fromAll : Bool)
  | cancel (k : ℕ) (watchId : String)
  | expire (k : ℕ) (watchId : String) (expected : Option ℕ) (force : Bool)
  /-- The next round trip of a cancellation or an expiry. -/
  | step (k : ℕ)
deriving DecidableEq

/-- The id that a call makes a watch's. -/
def Op.creates : Op → Option String
  | .create watch _ => some watch.watchId
  | _ => none

/-- The claim that an answer hands out. -/
def Reply.handedOut : Reply → Option WindowClaim
  | .claim result => result.claim
  | _ => none

/-- The machine: one script, or one read, at a time. -/
def callMachine : Machine CallSys CallLabel where
  init s := 0 ≤ s.retention ∧ s.db = .empty ∧ (∀ k, s.clients k = .idle) ∧ s.used = [] ∧ s.issued = []
  allowed s
    | .clock _ | .delete _ | .prune _ _ => True
    | .elapse ms => 0 ≤ ms
    | .fire key => (s.db.ttl.get? key).any (fun ms => ms ≤ 0) = true
    | .call op => op.OneTrip
    | .cancel k _ | .expire k _ _ _ => (s.clients k).isFree = true
    | .step k => (s.clients k).isFree = false
  exec
    | .clock now, s => { s with now := now }
    | .elapse ms, s => { s with db := s.db.elapse ms }
    | .fire key, s => { s with db := s.db.del key }
    | .call op, s =>
      let out := s.db.call s.retention s.now op
      { s with
        db := out.2
        used := op.creates.toList ++ s.used
        issued := (out.1.bind Reply.handedOut).toList ++ s.issued }
    | .delete u, s => { s with db := (s.db.delete u).2 }
    | .prune u fromAll, s => { s with db := s.db.pruneIndexMember u fromAll }
    | .cancel k u, s =>
      { s with clients := update s.clients k (.cancelStart u (Redis.cancelAttempts - 1)) }
    | .expire k u expected force, s =>
      { s with clients := update s.clients k (.expireStart u expected force) }
    | .step k, s =>
      let moved := (s.clients k).step s.retention s.now s.db
      { s with db := moved.db, clients := update s.clients k moved.client }

instance : DecidablePred Op.OneTrip
  | .cancel _ | .expire _ _ _ => inferInstanceAs (Decidable False)
  | .create _ _ | .claim _ _ _ _ _ | .begin _ | .commit _ _ _ | .release _ | .claimDispatch _ _ _
  | .markDispatched _ _ | .releaseDispatch _ | .synthesize _ _ | .cleanup _ _ =>
    inferInstanceAs (Decidable True)

instance (s : CallSys) : DecidablePred (callMachine.allowed s)
  | .clock _ | .delete _ | .prune _ _ => inferInstanceAs (Decidable True)
  | .elapse ms => inferInstanceAs (Decidable (0 ≤ ms))
  | .fire key => inferInstanceAs (Decidable ((s.db.ttl.get? key).any (fun ms => ms ≤ 0) = true))
  | .call op => inferInstanceAs (Decidable op.OneTrip)
  | .cancel k _ | .expire k _ _ _ => inferInstanceAs (Decidable ((s.clients k).isFree = true))
  | .step k => inferInstanceAs (Decidable ((s.clients k).isFree = false))

/-! ## What a step must leave alone -/

/-- The step from `db` to `db'` stores the sidecar of a watch, if it has one, with `cancel_requested` set,
and that is all. A `SET` drops the time to live of its key, which an active watch's sidecar has not. -/
def Redis.Intends (db : Redis) (watchId : String) (db' : Redis) : Prop :=
  db' = (db.runtimes.get? watchId).elim db fun runtime =>
    db.setRuntime watchId { runtime with cancelRequested := true }

/-- The watch that a client is cancelling. -/
def Client.cancels : Client → Option String
  | .cancelStart u _ | .cancelRead u _ _ | .cancelSend u _ _ _ _ _ => some u
  | _ => none

/-- What a round trip leaves of the database, by what it answers. -/
def Client.Untouched (retention : Duration) (now : Time) (db : Redis) (client : Client) : Prop :=
  let moved := client.step retention now db
  match moved.client.result with
  | some (.applied _ _ _) => True
  | some (.notEligible _) => client.cancels.elim (moved.db = db) fun u => db.Intends u moved.db
  | _ => moved.db = db

/-- The cancellation is about to be put off: it has read a booking in flight, and its compare of revisions
will pass. Then the stored sidecar is the one that it has read, `cancel_requested` apart. -/
def Client.Current (db : Redis) : Client → Prop
  | .cancelSend u _ _ (some r) _ _ => r.phase = some .booking →
      ∀ w' r', db.watches.get? u = some w' → w'.status = .active → db.runtimes.get? u = some r' →
        luaToString r'.revision = toString r.revision →
        { r with cancelRequested := r'.cancelRequested } = r'
  | _ => True

namespace CallSys

/-- A step that turns its caller down changes nothing, and one that puts a cancellation off changes nothing
but `cancel_requested`. -/
def Untouched (s : CallSys) : CallLabel → Prop
  | .call op => ∀ reply, (s.db.call s.retention s.now op).1 = some reply → op.Rejected reply →
      (s.db.call s.retention s.now op).2 = s.db
  | .step k => (s.clients k).Untouched s.retention s.now s.db
  | _ => True

/-- A cancellation that is put off finds the sidecar that it has read, `cancel_requested` apart. -/
def Current (s : CallSys) : CallLabel → Prop
  | .step k => (s.clients k).Current s.db
  | _ => True

end CallSys

/-! ## The single calls -/

namespace Redis

theorem create_rejected (db : Redis) (w : Watch) (r : WatchRuntime)
    (h : (Reply.create (db.create w r).1).isApplied = false) : (db.create w r).2 = db := by
  unfold create createWithSchedule at h ⊢
  split at h
  next => rfl
  next => contradiction

theorem claimWindow_rejected (db : Redis) (now : Time) (u windowId ownerId : String) (lease : Duration)
    (ignoreSchedule : Bool) {result : ClaimResult}
    (hresult : (db.claimWindow now u windowId ownerId lease ignoreSchedule).1 = some result)
    (h : (Reply.claim result).isApplied = false) :
    (db.claimWindow now u windowId ownerId lease ignoreSchedule).2 = db := by
  unfold claimWindow at hresult ⊢
  dsimp only at hresult ⊢
  generalize hout : db.claimScript u windowId ownerId (leaseMs lease) (toMs now) ignoreSchedule = out
    at hresult ⊢
  unfold claimScript at hout
  dsimp only at hout
  repeat' split at hout
  all_goals
    subst hout
    try rfl
  · contradiction
  · obtain ⟨token, -, hresult⟩ := Option.bind_eq_some_iff.mp hresult
    obtain ⟨expires, -, hresult⟩ := Option.bind_eq_some_iff.mp hresult
    obtain rfl := Option.some.inj hresult
    contradiction

theorem beginBooking_rejected (db : Redis) (now : Time) (c : WindowClaim) {permit : BookingPermit}
    (hpermit : (db.beginBooking now c).1 = some permit) (h : (Reply.begin permit).isApplied = false) :
    (db.beginBooking now c).2 = db := by
  unfold beginBooking at hpermit ⊢
  generalize hout : db.beginScript _ _ _ _ _ _ _ = out at hpermit ⊢
  unfold beginScript at hout
  dsimp only at hout
  repeat' split at hout
  all_goals
    subst hout
    first
      | rfl
      | contradiction
      | obtain rfl := Option.some.inj hpermit
        contradiction

theorem commitWindow_rejected (db : Redis) (retention : Duration) (now : Time) (c : WindowClaim)
    (nw : Watch) (nr : WatchRuntime) {result : CommitResult}
    (hresult : (db.commitWindow retention now c nw nr).1 = some result)
    (h : (Reply.commit result).isApplied = false) : (db.commitWindow retention now c nw nr).2 = db := by
  unfold commitWindow at hresult ⊢
  generalize hout : db.commitScript _ _ _ _ _ _ _ _ _ _ = out at hresult ⊢
  unfold commitScript at hout
  dsimp only at hout
  repeat' split at hout
  all_goals
    subst hout
    first
      | rfl
      | contradiction
      | obtain rfl := Option.some.inj hresult
        contradiction

theorem releaseClaim_rejected (db : Redis) (c : WindowClaim) {flag : Bool}
    (hflag : (db.releaseClaim c).1 = some flag) (h : (Reply.flag flag).isApplied = false) :
    (db.releaseClaim c).2 = db := by
  unfold releaseClaim at hflag ⊢
  generalize hout : db.releaseScript _ _ _ = out at hflag ⊢
  unfold releaseScript at hout
  repeat' split at hout
  all_goals
    subst hout
    first
      | rfl
      | contradiction
      | obtain rfl := Option.some.inj hflag
        contradiction

theorem claimDispatch_rejected (db : Redis) (now : Time) (marker : ScheduleMarker) (ownerId : String)
    (lease : Duration) {result : DispatchResult}
    (hresult : (db.claimDispatch now marker ownerId lease).1 = some result)
    (h : (Reply.dispatch result).isApplied = false) :
    (db.claimDispatch now marker ownerId lease).2 = db := by
  unfold claimDispatch at hresult ⊢
  dsimp only at hresult ⊢
  generalize hout : db.claimDispatchScript marker.watchId marker.windowId
    (dispatchWindowHash marker.windowId) ownerId (leaseMs lease) (toMs now) = out at hresult ⊢
  unfold claimDispatchScript at hout
  dsimp only at hout
  repeat' split at hout
  all_goals
    subst hout
    try rfl
  · contradiction
  · obtain ⟨generation, -, hresult⟩ := Option.bind_eq_some_iff.mp hresult
    obtain ⟨expires, -, hresult⟩ := Option.bind_eq_some_iff.mp hresult
    obtain rfl := Option.some.inj hresult
    contradiction

theorem markDispatched_rejected (db : Redis) (now : Time) (c : DispatchClaim) (after : Time) {flag : Bool}
    (hflag : (db.markDispatched now c after).1 = some flag) (h : (Reply.flag flag).isApplied = false) :
    (db.markDispatched now c after).2 = db := by
  unfold markDispatched at hflag ⊢
  generalize hout : db.markDispatchedScript _ _ _ _ _ _ = out at hflag ⊢
  unfold markDispatchedScript at hout
  dsimp only at hout
  repeat' split at hout
  all_goals
    subst hout
    first
      | rfl
      | contradiction
      | obtain rfl := Option.some.inj hflag
        contradiction

theorem releaseDispatch_rejected (db : Redis) (c : DispatchClaim) {flag : Bool}
    (hflag : (db.releaseDispatch c).1 = some flag) (h : (Reply.flag flag).isApplied = false) :
    (db.releaseDispatch c).2 = db := by
  unfold releaseDispatch at hflag ⊢
  generalize hout : db.releaseDispatchScript _ _ _ _ = out at hflag ⊢
  unfold releaseDispatchScript at hout
  repeat' split at hout
  all_goals
    subst hout
    first
      | rfl
      | contradiction
      | obtain rfl := Option.some.inj hflag
        contradiction

theorem synthesizeMarker_rejected (db : Redis) (now : Time) (u : String) (r : WatchRuntime) {flag : Bool}
    (hflag : (db.synthesizeMarker now u r).1 = some flag) (h : (Reply.flag flag).isApplied = false) :
    (db.synthesizeMarker now u r).2 = db := by
  rcases db.synthesizeMarker_cases now u r with ⟨-, hsame⟩ | ⟨ms, fence, -, hrepaired, -⟩
  · exact hsame
  · obtain rfl := Option.some.inj (hrepaired.symm.trans hflag)
    contradiction

/-- A script that turns its caller down writes nothing. -/
theorem call_rejected (db : Redis) (retention : Duration) (now : Time) {op : Op} (hop : op.OneTrip)
    {reply : Reply} (hreply : (db.call retention now op).1 = some reply) (h : op.Rejected reply) :
    (db.call retention now op).2 = db := by
  obtain ⟨hrejected, hcleanup, -⟩ := h
  cases op with
  | cancel | expire | cleanup => contradiction
  | create w r =>
    obtain rfl := Option.some.inj hreply
    exact create_rejected db w r hrejected
  | claim =>
    obtain ⟨result, hresult, rfl⟩ := Option.map_eq_some_iff.mp hreply
    exact claimWindow_rejected _ _ _ _ _ _ _ hresult hrejected
  | begin =>
    obtain ⟨permit, hpermit, rfl⟩ := Option.map_eq_some_iff.mp hreply
    exact beginBooking_rejected _ _ _ hpermit hrejected
  | commit =>
    obtain ⟨result, hresult, rfl⟩ := Option.map_eq_some_iff.mp hreply
    exact commitWindow_rejected _ _ _ _ _ _ hresult hrejected
  | release =>
    obtain ⟨flag, hflag, rfl⟩ := Option.map_eq_some_iff.mp hreply
    exact releaseClaim_rejected _ _ hflag hrejected
  | claimDispatch =>
    obtain ⟨result, hresult, rfl⟩ := Option.map_eq_some_iff.mp hreply
    exact claimDispatch_rejected _ _ _ _ _ hresult hrejected
  | markDispatched =>
    obtain ⟨flag, hflag, rfl⟩ := Option.map_eq_some_iff.mp hreply
    exact markDispatched_rejected _ _ _ _ hflag hrejected
  | releaseDispatch =>
    obtain ⟨flag, hflag, rfl⟩ := Option.map_eq_some_iff.mp hreply
    exact releaseDispatch_rejected _ _ hflag hrejected
  | synthesize =>
    obtain ⟨flag, hflag, rfl⟩ := Option.map_eq_some_iff.mp hreply
    exact synthesizeMarker_rejected _ _ _ _ hflag hrejected

end Redis

/-! ## The calls in several round trips -/

/-- Two sidecars that are the same once the intent is recorded in both differ in nothing else. -/
theorem WatchRuntime.intended_eq_iff (r r' : WatchRuntime) :
    { r with cancelRequested := true } = { r' with cancelRequested := true } ↔
      { r with cancelRequested := r'.cancelRequested } = r' := by
  cases r
  cases r'
  simp

/-- The write of a cancellation that is put off sets `cancel_requested` alone exactly when the stored
sidecar is the one that was read, `cancel_requested` apart. -/
theorem Redis.intends_iff (db : Redis) (u : String) (r : WatchRuntime) :
    db.Intends u (if db.runtimes.contains u then db.setRuntime u { r with cancelRequested := true } else db) ↔
      ∀ r', db.runtimes.get? u = some r' → { r with cancelRequested := r'.cancelRequested } = r' := by
  unfold Intends
  cases hstored : db.runtimes.get? u with
  | none => simp [Dict.contains_eq, hstored]
  | some r' =>
    have hcontains : db.runtimes.contains u = true := by simp [Dict.contains_eq, hstored]
    rw [if_pos hcontains, Option.elim_some]
    constructor
    · intro h r₁ hr₁
      obtain rfl := Option.some.inj hr₁
      rw [← WatchRuntime.intended_eq_iff]
      have hget := congrArg (fun db : Redis => db.runtimes.get? u) h
      simpa [setRuntime] using hget
    · intro h
      rw [(WatchRuntime.intended_eq_iff r r').mpr (h r' rfl)]

/-- The script of a cancellation answers `NOT_ELIGIBLE` to a caller that has read a booking in flight, and
it answers so on an active watch that nobody has overtaken. -/
theorem Redis.cancelScript_pending (db : Redis) (u cas : String) (r : WatchRuntime) :
    (∃ w, db.watches.get? u = some w ∧ w.status = .active ∧ db.overtaken u cas = false ∧
      db.cancelScript u cas (.pending r) =
        (.notEligible w, if db.runtimes.contains u then db.setRuntime u r else db)) ∨
    ((∀ w, db.watches.get? u = some w → w.status = .active → db.overtaken u cas = true) ∧
      (∀ w, (db.cancelScript u cas (.pending r)).1 ≠ .notEligible w) ∧
      (∀ w, (db.cancelScript u cas (.pending r)).1 ≠ .applied w) ∧
      (db.cancelScript u cas (.pending r)).2 = db) := by
  unfold cancelScript
  cases hw : db.watches.get? u with
  | none => exact .inr ⟨by simp, by simp, by simp, rfl⟩
  | some w =>
    by_cases hactive : w.status = .active
    · cases hover : db.overtaken u cas with
      | true =>
        refine .inr ⟨fun _ _ _ => rfl, ?_⟩
        simp [hactive]
      | false =>
        refine .inl ⟨w, rfl, hactive, rfl, ?_⟩
        simp [hactive]
    · refine .inr ⟨fun w' hw' hactive' => ?_, ?_⟩
      · obtain rfl := Option.some.inj hw'
        exact absurd hactive' hactive
      · simp [hactive]

namespace Client

variable {retention : Duration} {now : Time} {db : Redis}

/-- A round trip that leaves the database alone is in order, unless it ends a cancellation that is put
off. -/
theorem Untouched.of_same {client : Client} (hdb : (client.step retention now db).db = db)
    (hresult : ∀ w, client.cancels ≠ none → (client.step retention now db).client.result ≠ some (.notEligible w)) :
    client.Untouched retention now db := by
  unfold Untouched
  dsimp only
  split
  next => trivial
  next w hw =>
    cases hcancels : client.cancels with
    | none => exact hdb
    | some u => exact absurd hw (hresult w (by simp [hcancels]))
  next => exact hdb

/-- The last round trip of an expiry stores the end of the watch, or nothing. -/
theorem untouched_expireSend (u : String) (w : Watch) (runtime : Option WatchRuntime)
    (request : ExpireRequest) (current : Option Watch) :
    (Client.expireSend u w runtime request current).Untouched retention now db := by
  rcases db.expireScript_cases u (casRevision runtime) request.newWatch request.newRuntime
    request.eventId request.terminalDeleteMs request.retentionTtlMs with ⟨-, -, -, -, hreply, -⟩ | ⟨-, hsame⟩
  · simp only [Untouched, step, hreply, expireAnswer, result]
  · exact .of_same hsame fun w h => by simp [cancels] at h

/-- The last round trip of a cancellation that has read no booking in flight stores the end of the watch, or
nothing. -/
theorem untouched_cancelSend {runtime : Option WatchRuntime}
    (hphase : ∀ r, runtime = some r → r.phase ≠ some .booking) (u : String) (attempts : ℕ) (w : Watch)
    (moment : Time) (current : Option Watch) :
    (Client.cancelSend u attempts w runtime moment current).Untouched retention now db := by
  have hnone : (runtime.filter fun r => r.phase = some .booking) = none := by
    rw [Option.filter_eq_none_iff]
    simpa using hphase
  obtain ⟨nw, nr, ms, ttl, hmode⟩ : ∃ nw nr ms ttl,
      cancelMode retention moment w runtime = .cancel nw nr ms ttl := by
    simp [cancelMode, hnone]
  rcases db.cancelScript_cases u (casRevision runtime) (cancelMode retention moment w runtime) with
    ⟨-, hout⟩ | ⟨w', -, -, hout⟩ | ⟨w', -, -, -, hout⟩ | ⟨w', -, -, -, hmode'⟩
  · refine .of_same (by simp [step, hout]) fun w' _ => ?_
    simp [step, hout, cancelNext, cancelAnswer, result]
  · refine .of_same (by simp [step, hout]) fun w' _ => ?_
    simp [step, hout, cancelNext, cancelAnswer, result]
  · refine .of_same (by simp [step, hout]) fun w' _ => ?_
    cases attempts <;> simp [step, hout, cancelNext, cancelAnswer, result]
  · rcases hmode' with ⟨r, hpending, -⟩ | ⟨nw', nr', ms', ttl', -, hreply, -⟩
    · rw [hmode] at hpending
      contradiction
    · simp only [Untouched, step, hreply, cancelNext, cancelAnswer, result]

/-- The last round trip of a cancellation that has read a booking in flight. -/
theorem untouched_cancelSend_iff {r : WatchRuntime} (hphase : r.phase = some .booking) (u : String)
    (attempts : ℕ) (w : Watch) (moment : Time) (current : Option Watch) :
    (Client.cancelSend u attempts w (some r) moment current).Untouched retention now db ↔
      (Client.cancelSend u attempts w (some r) moment current).Current db := by
  have hmode := cancelMode_booking hphase retention moment w
  rcases db.cancelScript_pending u (casRevision (some r)) { r with cancelRequested := true } with
    ⟨w', hw', hactive, hno, hout⟩ | ⟨hover, hne, hna, hsame⟩
  · have huntouched : (Client.cancelSend u attempts w (some r) moment current).Untouched retention now db ↔
        db.Intends u
          (if db.runtimes.contains u then db.setRuntime u { r with cancelRequested := true } else db) := by
      simp only [Untouched, step, hmode, hout, cancelNext, cancelAnswer, result, cancels, Option.elim_some]
    rw [huntouched, Redis.intends_iff]
    constructor
    · exact fun h _ _ r' _ _ hr' _ => h r' hr'
    · intro h r' hr'
      refine h hphase w' r' hw' hactive hr' ?_
      -- The compare has passed.
      have hno' := mt (Redis.overtaken_iff db u r).mpr (by simp [hno])
      by_contra hne
      exact hno' ⟨r', hr', hne⟩
  · constructor
    · intro _ _ w' r' hw' hactive hr' hrevision
      obtain ⟨r₁, hr₁, hne₁⟩ := (Redis.overtaken_iff db u r).mp (hover w' hw' hactive)
      obtain rfl := Option.some.inj (hr'.symm.trans hr₁)
      exact absurd hrevision hne₁
    · intro _
      refine .of_same (by simpa only [step, hmode] using hsame) fun w₁ _ => ?_
      simp only [step, hmode, cancelNext]
      cases hreply : (db.cancelScript u (casRevision (some r))
          (.pending { r with cancelRequested := true })).1 with
      | notEligible w₂ => exact absurd hreply (hne w₂)
      | applied w₂ => exact absurd hreply (hna w₂)
      | fenced => cases attempts <;> simp [cancelAnswer, result]
      | _ => simp [cancelAnswer, result]

/-- A read leaves the database alone. -/
theorem untouched_read {client : Client} (hcancel : ∀ u a w r m c, client ≠ .cancelSend u a w r m c)
    (hexpire : ∀ u w r q c, client ≠ .expireSend u w r q c) : client.Untouched retention now db := by
  cases client with
  | idle | answered | cancelRead => exact .of_same rfl (by simp [cancels, step, result])
  | cancelSend => exact absurd rfl (hcancel _ _ _ _ _ _)
  | expireSend => exact absurd rfl (hexpire _ _ _ _ _)
  | cancelStart u attempts =>
    apply Untouched.of_same
    · simp only [step]
      split
      · rfl
      · split <;> rfl
    · intro w _
      simp only [step]
      split
      · simp [result]
      · split <;> simp [result]
  | expireStart u expected force =>
    apply Untouched.of_same
    · simp only [step]
      split
      · rfl
      · split <;> rfl
    · simp [cancels]
  | expireRead u expected force w =>
    apply Untouched.of_same
    · simp only [step]
      split <;> rfl
    · simp [cancels]

end Client

/-- A round trip leaves alone what its answer says it does, exactly when a cancellation that is put off
finds the sidecar that it has read. -/
theorem Client.untouched_iff (retention : Duration) (now : Time) (db : Redis) (client : Client) :
    client.Untouched retention now db ↔ client.Current db := by
  cases client with
  | cancelSend u attempts w runtime moment current =>
    cases runtime with
    | none => exact ⟨fun _ => trivial, fun _ => untouched_cancelSend (by simp) u attempts w moment current⟩
    | some r =>
      by_cases hphase : r.phase = some .booking
      · exact untouched_cancelSend_iff hphase u attempts w moment current
      · refine ⟨fun _ hbooking => absurd hbooking hphase, fun _ => ?_⟩
        exact untouched_cancelSend (by simpa using hphase) u attempts w moment current
  | expireSend => exact ⟨fun _ => trivial, fun _ => untouched_expireSend ..⟩
  | _ => exact ⟨fun _ => trivial, fun _ => untouched_read (by simp) (by simp)⟩

/-- A step leaves alone what its answer says it does, exactly when a cancellation that is put off finds the
sidecar that it has read. -/
theorem CallSys.untouched_iff (s : CallSys) {label : CallLabel} (h : callMachine.allowed s label) :
    s.Untouched label ↔ s.Current label := by
  cases label with
  | call op =>
    have huntouched : s.Untouched (.call op) :=
      fun reply hreply hrejected => s.db.call_rejected s.retention s.now h hreply hrejected
    exact ⟨fun _ => trivial, fun _ => huntouched⟩
  | step k => exact (s.clients k).untouched_iff s.retention s.now s.db
  | _ => exact Iff.rfl

end Dibs
