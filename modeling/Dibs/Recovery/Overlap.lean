import Dibs.Recovery.Readings

/-!
# Overlapping recovery passes

Any number of coordinators, each in the candidate loop of its own `_run_pass`
(`backend/services/watch_recovery.py`), store call by store call between the claims, permits, commits,
releases, cancellations and creations of other clients. A pass acts on what it read at its start: its
candidates are put together from four reads each, and by the time one is reconciled any of them may be
stale. What it acts on stays grounded (`RecoveryLoop.Grounded`), and that is all its repairs need.
-/

namespace Dibs

open Function (update)

/-! ## The passes and their clients -/

/-- How far a pass has come with the candidate that it reads. -/
inductive Glimpse
  | start
  | sawWatch (watch : Option Watch)
  | sawRuntime (watch : Option Watch) (runtime : Option WatchRuntime)
  | sawMarker (watch : Option Watch) (runtime : Option WatchRuntime) (hasMarker : Bool)
deriving DecidableEq

/-- Where a coordinator stands in its candidate loop. -/
inductive RecoveryLoop
  | idle
  /-- It is about to read the members of the active index. -/
  | listing (started : Time)
  /-- It reads the candidate of the first id that is left. -/
  | reading (started : Time) (nowMs : ℤ) (done : List RecoveryCandidate) (glimpse : Glimpse)
      (todo : List String)
  /-- It is about to reconcile the first candidate that is left. -/
  | reconciling (started : Time) (todo : List RecoveryCandidate)
  /-- It is in a call of `expire_if_eligible` for a candidate. -/
  | expiring (started : Time) (call : Client) (todo : List RecoveryCandidate)
deriving DecidableEq

/-- What one step of a coordinator leaves: the watch that it has expired, and the watch whose expiry it
owes to the user. -/
structure LoopMoved where
  pass : RecoveryLoop
  db : Redis
  expired : Option String
  owed : Option String

/-- What the loop does with the candidate at hand. -/
def RecoveryLoop.action (earliestDelaySeconds : ℚ) : RecoveryLoop → Option RecoveryAction
  | .reconciling started (candidate :: _) => reconcileAction earliestDelaySeconds candidate started
  | _ => none

/-- The next store call of a coordinator. -/
def RecoveryLoop.step (earliestDelaySeconds : ℚ) (retention : Duration) (now : Time) (db : Redis) :
    RecoveryLoop → LoopMoved
  | .idle => ⟨.idle, db, none, none⟩
  | .listing started =>
    ⟨.reading started (toMs now) [] .start (db.active.insertionSort (· ≤ ·)), db, none, none⟩
  | .reading started _ done _ [] => ⟨.reconciling started done, db, none, none⟩
  | .reading started nowMs done glimpse (u :: todo) =>
    match glimpse with
    | .start => ⟨.reading started nowMs done (.sawWatch (db.get u)) (u :: todo), db, none, none⟩
    | .sawWatch watch =>
      ⟨.reading started nowMs done (.sawRuntime watch (db.getRuntime u)) (u :: todo), db, none, none⟩
    | .sawRuntime watch runtime =>
      ⟨.reading started nowMs done (.sawMarker watch runtime (db.schedule.contains u)) (u :: todo), db,
        none, none⟩
    | .sawMarker watch runtime hasMarker =>
      let candidate := ⟨u, watch, runtime, hasMarker, claimIsLive (db.claims.get? u) nowMs⟩
      ⟨.reading started nowMs (done ++ [candidate]) .start todo, db, none, none⟩
  | .reconciling _ [] => ⟨.idle, db, none, none⟩
  | .reconciling started (candidate :: todo) =>
    let u := candidate.watchId
    match reconcileAction earliestDelaySeconds candidate started with
    | some (.prune fromAll) => ⟨.reconciling started todo, db.pruneIndexMember u fromAll, none, none⟩
    | some .expire => ⟨.expiring started (.expireStart u none false) todo, db, none, none⟩
    | some (.synthesize runtime) =>
      ⟨.reconciling started todo, (db.synthesizeMarker now u runtime).2, none, none⟩
    | some .deferred | some .preserved | none => ⟨.reconciling started todo, db, none, none⟩
  | .expiring started call todo =>
    if call.isFree then ⟨.reconciling started todo, db, none, none⟩
    else
      let moved := call.step retention now db
      ⟨.expiring started moved.client todo, moved.db, moved.run.bind ScriptRun.expires,
        (moved.run.bind ScriptRun.answer).bind TransitionResult.announces⟩

/-- A store call of the loop raises: the candidate is given up, or the pass before there are any. -/
def RecoveryLoop.fail : RecoveryLoop → RecoveryLoop
  | .reconciling started (_ :: todo) | .expiring started _ todo => .reconciling started todo
  | _ => .idle

/-- The store, the coordinators, and the other clients. -/
structure OverlapSys where
  now : Time
  retention : Duration
  db : Redis
  /-- The ids that are not new any more. -/
  used : List String
  /-- The claims handed out so far. -/
  issued : List WindowClaim
  /-- The cancellations. -/
  clients : ℕ → Client
  passes : ℕ → RecoveryLoop
  /-- The watches that were expired so far, once for each time. -/
  expiries : List String
  /-- The watches whose expiry is still to be announced. -/
  owed : List String
  /-- The watches whose expiry was announced, once for each time. -/
  notified : List String

/-- What can happen next. -/
inductive OverlapLabel
  | tick (d : Duration)
  /-- Time passes at the server. -/
  | elapse (ms : ℤ)
  /-- A key goes whose time to live has run out. -/
  | fire (key : RedisKey)
  | create (watch : Watch) (runtime : WatchRuntime)
  | claim (watchId windowId ownerId : String) (lease : Duration) (ignoreSchedule : Bool)
  | begin (claim : WindowClaim)
  | commit (claim : WindowClaim) (plan : Plan)
  | release (claim : WindowClaim)
  | cancel (k : ℕ) (watchId : String)
  /-- The next store call of a cancellation. -/
  | step (k : ℕ)
  | start (i : ℕ)
  /-- The next store call of a coordinator. -/
  | sweep (i : ℕ)
  /-- A store call of a coordinator raises. -/
  | fail (i : ℕ)
  | crash (i : ℕ)
  | notify (watchId : String)

/-- The machine: one script, one read or one tick of a clock at a time. Only claims that were handed out
are presented, commits are built by the service, and a creation takes a new id. -/
def overlapMachine (svc : WatchService) (earliestDelaySeconds : ℚ) :
    Machine OverlapSys OverlapLabel where
  init s := 0 ≤ s.retention ∧ s.db.Sound s.used ∧ s.issued = [] ∧ (∀ k, s.clients k = .idle) ∧
    (∀ i, s.passes i = .idle) ∧ s.expiries = [] ∧ s.owed = [] ∧ s.notified = []
  allowed s
    | .tick d => 0 ≤ d
    | .elapse ms => 0 ≤ ms
    | .fire key => (s.db.ttl.get? key).any (fun ms => ms ≤ 0) = true
    | .create watch _ => watch.watchId ∉ s.used
    | .claim _ _ _ _ _ => True
    | .begin claim | .release claim => claim ∈ s.issued
    | .commit claim plan => claim ∈ s.issued ∧ Built svc claim plan
    | .cancel k _ => (s.clients k).isFree = true
    | .step k => (s.clients k).isFree = false
    | .start i => s.passes i = .idle
    | .sweep i => s.passes i ≠ .idle
    | .fail _ | .crash _ => True
    | .notify u => u ∈ s.owed
  exec
    | .tick d, s => { s with now := s.now + d }
    | .elapse ms, s => { s with db := s.db.elapse ms }
    | .fire key, s => { s with db := s.db.del key }
    | .create watch runtime, s =>
      { s with db := (s.db.create watch runtime).2, used := watch.watchId :: s.used }
    | .claim u windowId ownerId lease ignoreSchedule, s =>
      let out := s.db.claimWindow s.now u windowId ownerId lease ignoreSchedule
      { s with db := out.2, issued := (out.1.bind ClaimResult.claim).toList ++ s.issued }
    | .begin claim, s => { s with db := (s.db.beginBooking s.now claim).2 }
    | .commit claim plan, s =>
      let out := s.db.commitWindow s.retention s.now claim plan.watch plan.runtime
      { s with
        db := out.2
        expiries := (out.1.bind CommitResult.expires).toList ++ s.expiries
        owed := (out.1.bind CommitResult.announces).toList ++ s.owed }
    | .release claim, s => { s with db := (s.db.releaseClaim claim).2 }
    | .cancel k u, s =>
      { s with clients := update s.clients k (.cancelStart u (Redis.cancelAttempts - 1)) }
    | .step k, s =>
      let moved := (s.clients k).step s.retention s.now s.db
      { s with db := moved.db, clients := update s.clients k moved.client }
    | .start i, s => { s with passes := update s.passes i (.listing s.now) }
    | .sweep i, s =>
      let moved := (s.passes i).step earliestDelaySeconds s.retention s.now s.db
      { s with
        db := moved.db
        passes := update s.passes i moved.pass
        expiries := moved.expired.toList ++ s.expiries
        owed := moved.owed.toList ++ s.owed }
    | .fail i, s => { s with passes := update s.passes i (s.passes i).fail }
    | .crash i, s => { s with passes := update s.passes i .idle }
    | .notify u, s => { s with owed := s.owed.erase u, notified := u :: s.notified }

/-- Whether a label is allowed can be computed, a commit apart. -/
noncomputable instance (svc : WatchService) (earliestDelaySeconds : ℚ) (s : OverlapSys) :
    (label : OverlapLabel) → Decidable ((overlapMachine svc earliestDelaySeconds).allowed s label)
  | .tick d => inferInstanceAs (Decidable (0 ≤ d))
  | .elapse ms => inferInstanceAs (Decidable (0 ≤ ms))
  | .fire key => inferInstanceAs (Decidable ((s.db.ttl.get? key).any (fun ms => ms ≤ 0) = true))
  | .create watch _ => inferInstanceAs (Decidable (watch.watchId ∉ s.used))
  | .claim _ _ _ _ _ => inferInstanceAs (Decidable True)
  | .begin claim | .release claim => inferInstanceAs (Decidable (claim ∈ s.issued))
  | .commit _ _ => Classical.propDecidable _
  | .cancel k _ => inferInstanceAs (Decidable ((s.clients k).isFree = true))
  | .step k => inferInstanceAs (Decidable ((s.clients k).isFree = false))
  | .start i => inferInstanceAs (Decidable (s.passes i = .idle))
  | .sweep i => inferInstanceAs (Decidable (s.passes i ≠ .idle))
  | .fail _ | .crash _ => inferInstanceAs (Decidable True)
  | .notify u => inferInstanceAs (Decidable (u ∈ s.owed))

/-! ## The candidate loops -/

/-- What a candidate says that is still right. -/
structure RecoveryCandidate.Grounded (db : Redis) (used : List String) (c : RecoveryCandidate) : Prop where
  used : c.watchId ∈ used
  ended : db.Ended c.watchId c.watch
  fits : (db.view c.watchId).Fits c.runtime

/-- What a candidate that is still being read says. -/
def Glimpse.Grounded (db : Redis) (u : String) : Glimpse → Prop
  | .start => True
  | .sawWatch watch => db.Ended u watch
  | .sawRuntime watch runtime | .sawMarker watch runtime _ => db.Ended u watch ∧ (db.view u).Fits runtime

/-- What a coordinator acts on. -/
def RecoveryLoop.Grounded (retention : Duration) (db : Redis) (used : List String) : RecoveryLoop → Prop
  | .idle | .listing _ => True
  | .reading _ _ done glimpse todo =>
    (∀ c ∈ done, c.Grounded db used) ∧ (∀ u ∈ todo, u ∈ used) ∧ ∀ u ∈ todo.head?, glimpse.Grounded db u
  | .reconciling _ todo => ∀ c ∈ todo, c.Grounded db used
  | .expiring _ call todo => call.Grounded retention db used ∧ ∀ c ∈ todo, c.Grounded db used

theorem RecoveryCandidate.Grounded.keeps {db db' : Redis} {used used' : List String} {c : RecoveryCandidate}
    (h : c.Grounded db used) (hused : used ⊆ used')
    (hk : ∀ u ∈ used, (db.view u).Keeps (db'.view u)) : c.Grounded db' used' :=
  ⟨hused h.used, h.ended.keeps (hk _ h.used), h.fits.keeps (hk _ h.used)⟩

theorem RecoveryLoop.Grounded.keeps {retention : Duration} {db db' : Redis} {used used' : List String}
    {pass : RecoveryLoop} (h : pass.Grounded retention db used) (hused : used ⊆ used')
    (hk : ∀ u ∈ used, (db.view u).Keeps (db'.view u)) : pass.Grounded retention db' used' := by
  cases pass with
  | idle | listing => trivial
  | reading started nowMs done glimpse todo =>
    obtain ⟨hdone, htodo, hhead⟩ := h
    refine ⟨fun c hc => (hdone c hc).keeps hused hk, fun u hu => hused (htodo u hu), fun u hu => ?_⟩
    have hglimpse := hhead u hu
    have hu := htodo u (List.mem_of_mem_head? hu)
    cases glimpse with
    | start => trivial
    | sawWatch => exact hglimpse.keeps (hk u hu)
    | sawRuntime | sawMarker => exact ⟨hglimpse.1.keeps (hk u hu), hglimpse.2.keeps (hk u hu)⟩
  | reconciling started todo => exact fun c hc => (h c hc).keeps hused hk
  | expiring started call todo =>
    exact ⟨h.1.keeps hused hk, fun c hc => (h.2 c hc).keeps hused hk⟩

/-- A candidate that is pruned was not read active. -/
theorem reconcileAction_prune {earliestDelaySeconds : ℚ} {c : RecoveryCandidate} {now : Time}
    {fromAll : Bool} (h : reconcileAction earliestDelaySeconds c now = some (.prune fromAll)) :
    ∀ w, c.watch = some w → w.status ≠ .active := by
  intro w hw hactive
  have hterminal : w.status.isTerminal = false := by simpa using hactive
  unfold reconcileAction at h
  simp only [hw, hterminal, Bool.false_eq_true, if_false] at h
  split_ifs at h <;> simp at h

/-- A repair keeps the version that was read. -/
theorem reconcileAction_synthesize {earliestDelaySeconds : ℚ} {c : RecoveryCandidate} {now : Time}
    {repaired : WatchRuntime}
    (h : reconcileAction earliestDelaySeconds c now = some (.synthesize repaired)) :
    ∀ r, c.runtime = some r → repaired.version = r.version := by
  intro r hr
  unfold reconcileAction at h
  split at h
  · simp only [Option.some.injEq, reduceCtorEq] at h
  · split_ifs at h
    all_goals try simp only [Option.some.injEq, reduceCtorEq] at h
    obtain ⟨repaired', hrepaired, h⟩ := Option.map_eq_some_iff.mp h
    obtain rfl := RecoveryAction.synthesize.inj h
    simp only [markerRuntime, hr] at hrepaired
    obtain rfl := Option.some.inj hrepaired
    rfl

/-- One store call of a grounded coordinator. -/
theorem RecoveryLoop.Grounded.step (earliestDelaySeconds : ℚ) {retention : Duration} (hret : 0 ≤ retention)
    {db : Redis} {used : List String} (hsound : db.Sound used) {pass : RecoveryLoop}
    (h : pass.Grounded retention db used) (now : Time) :
    db.Evolves used (pass.step earliestDelaySeconds retention now db).db ∧
      (pass.step earliestDelaySeconds retention now db).pass.Grounded retention
        (pass.step earliestDelaySeconds retention now db).db used := by
  cases pass with
  | idle => exact ⟨hsound.evolves_refl, trivial⟩
  | listing started =>
    refine ⟨hsound.evolves_refl, fun c hc => by contradiction, fun u hu => ?_, fun u _ => trivial⟩
    exact hsound.members u ((List.mem_insertionSort _).mp hu)
  | reading started nowMs done glimpse todo =>
    obtain ⟨hdone, htodo, hhead⟩ := h
    cases todo with
    | nil => exact ⟨hsound.evolves_refl, hdone⟩
    | cons u todo =>
      have hglimpse := hhead u rfl
      have hstay : ∀ {next : Glimpse}, next.Grounded db u →
          (RecoveryLoop.reading started nowMs done next (u :: todo)).Grounded retention db used := by
        refine fun hnext => ⟨hdone, htodo, fun v hv => ?_⟩
        obtain rfl := Option.some.inj hv
        exact hnext
      cases glimpse with
      | start => exact ⟨hsound.evolves_refl, hstay (hsound.ended_get u)⟩
      | sawWatch watch =>
        exact ⟨hsound.evolves_refl, hstay ⟨hglimpse, WatchView.fits_runtime (db.view u)⟩⟩
      | sawRuntime watch runtime => exact ⟨hsound.evolves_refl, hstay hglimpse⟩
      | sawMarker watch runtime hasMarker =>
        refine ⟨hsound.evolves_refl, fun c hc => ?_, fun v hv => htodo v (List.mem_cons_of_mem _ hv),
          fun v _ => trivial⟩
        rcases List.mem_append.mp hc with hc | hc
        · exact hdone c hc
        · obtain rfl := List.mem_singleton.mp hc
          exact ⟨htodo u List.mem_cons_self, hglimpse.1, hglimpse.2⟩
  | reconciling started todo =>
    cases todo with
    | nil => exact ⟨hsound.evolves_refl, trivial⟩
    | cons c todo =>
      obtain ⟨hc, htodo⟩ := List.forall_mem_cons.mp h
      simp only [RecoveryLoop.step]
      split
      next fromAll haction =>
        have hevolves := hsound.pruneIndexMember hc.used
          (hc.ended (reconcileAction_prune haction)) fromAll
        exact ⟨hevolves, fun c hc => (htodo c hc).keeps (List.Subset.refl _) hevolves.keeps⟩
      next => exact ⟨hsound.evolves_refl, trivial, htodo⟩
      next repaired haction =>
        have hevolves := hsound.synthesizeMarker now (reconcileAction_synthesize haction) hc.fits
        exact ⟨hevolves, fun c hc => (htodo c hc).keeps (List.Subset.refl _) hevolves.keeps⟩
      all_goals exact ⟨hsound.evolves_refl, htodo⟩
  | expiring started call todo =>
    obtain ⟨hcall, htodo⟩ := h
    simp only [RecoveryLoop.step]
    split
    · exact ⟨hsound.evolves_refl, htodo⟩
    · obtain ⟨hevolves, hnext⟩ := hcall.step hret hsound now
      exact ⟨hevolves, hnext, fun c hc => (htodo c hc).keeps (List.Subset.refl _) hevolves.keeps⟩

/-- Only a call of `expire_if_eligible` expires a watch in a candidate loop. -/
theorem RecoveryLoop.step_expired {earliestDelaySeconds : ℚ} {retention : Duration} {now : Time} {db : Redis}
    {pass : RecoveryLoop} {u : String}
    (hu : (pass.step earliestDelaySeconds retention now db).expired = some u ∨
      (pass.step earliestDelaySeconds retention now db).owed = some u) :
    ∃ started call todo, pass = .expiring started call todo ∧ call.isFree = false := by
  unfold RecoveryLoop.step at hu
  repeat' split at hu
  all_goals try simp at hu
  next started call todo hbusy => exact ⟨started, call, todo, rfl, by simpa using hbusy⟩

/-- A coordinator that expires a watch finds it active and leaves it finished. -/
theorem RecoveryLoop.Grounded.expired {earliestDelaySeconds : ℚ} {retention : Duration}
    (hret : 0 ≤ retention) {db : Redis} {used : List String} {pass : RecoveryLoop}
    (h : pass.Grounded retention db used) (now : Time) (u : String)
    (hu : (pass.step earliestDelaySeconds retention now db).expired = some u) :
    (db.view u).Live ∧ ¬ ((pass.step earliestDelaySeconds retention now db).db.view u).Live := by
  obtain ⟨started, call, todo, rfl, hbusy⟩ := RecoveryLoop.step_expired (.inl hu)
  simp only [RecoveryLoop.step, hbusy, Bool.false_eq_true, if_false] at hu ⊢
  exact (h.1.expires hret now hu).2

/-- A coordinator owes the announcement only of an expiry that it has just made. -/
theorem RecoveryLoop.Grounded.owed {earliestDelaySeconds : ℚ} {retention : Duration} {db : Redis}
    {used : List String} {pass : RecoveryLoop} (h : pass.Grounded retention db used) (now : Time)
    (u : String) (hu : (pass.step earliestDelaySeconds retention now db).owed = some u) :
    (pass.step earliestDelaySeconds retention now db).expired = some u := by
  obtain ⟨started, call, todo, rfl, hbusy⟩ := RecoveryLoop.step_expired (.inr hu)
  simp only [RecoveryLoop.step, hbusy, Bool.false_eq_true, if_false] at hu ⊢
  exact h.1.announces now hu

namespace OverlapSys

/-- The invariant: everything in flight is grounded, and an expiry is counted once and announced once. -/
structure Inv (s : OverlapSys) : Prop where
  retention_nonneg : 0 ≤ s.retention
  sound : s.db.Sound s.used
  issued : ∀ c ∈ s.issued, c.watch.watchId ∈ s.used ∧ c.watch.status = .active ∧
    (s.db.view c.watch.watchId).Fits (some c.runtime)
  clients : ∀ k, (s.clients k).Grounded s.retention s.db s.used
  passes : ∀ i, (s.passes i).Grounded s.retention s.db s.used
  expired : ∀ u ∈ s.expiries, u ∈ s.used ∧ ¬ (s.db.view u).Live
  once : s.expiries.Nodup
  announced : ∀ u, s.owed.count u + s.notified.count u ≤ s.expiries.count u

variable {s : OverlapSys}

/-- A step that evolves the database and perhaps expires a watch, and announces no other expiry. -/
theorem Inv.move (h : s.Inv) {db' : Redis} (hevolves : s.db.Evolves s.used db')
    {expired owed : Option String}
    (hexpired : ∀ u, expired = some u → (s.db.view u).Live ∧ ¬ (db'.view u).Live)
    (howed : ∀ u, owed = some u → expired = some u) :
    Inv { s with
      db := db', expiries := expired.toList ++ s.expiries, owed := owed.toList ++ s.owed } where
  retention_nonneg := h.retention_nonneg
  sound := hevolves.sound
  issued c hc := by
    obtain ⟨hused, hactive, hfits⟩ := h.issued c hc
    exact ⟨hused, hactive, hfits.keeps (hevolves.keeps _ hused)⟩
  clients k := (h.clients k).keeps (List.Subset.refl _) hevolves.keeps
  passes i := (h.passes i).keeps (List.Subset.refl _) hevolves.keeps
  expired u hu := by
    rcases List.mem_append.mp hu with hu | hu
    · obtain ⟨hlive, hgone⟩ := hexpired u (Option.mem_toList.mp hu)
      exact ⟨h.sound.mem_of_live hlive, hgone⟩
    · obtain ⟨hused, hgone⟩ := h.expired u hu
      exact ⟨hused, fun hlive => hgone ((hevolves.keeps u hused).live hlive)⟩
  once := by
    cases expired with
    | none => exact h.once
    | some u =>
      -- a watch that was expired before would not have been active
      exact List.nodup_cons.mpr ⟨fun hu => (h.expired u hu).2 (hexpired u rfl).1, h.once⟩
  announced u := by
    have hcount := h.announced u
    simp only [List.count_append]
    have hone : owed.toList.count u ≤ expired.toList.count u := by
      cases hu : owed with
      | none => simp
      | some v => simp [howed v hu]
    omega

/-- A step that evolves the database and expires nothing. -/
theorem Inv.evolve (h : s.Inv) {db' : Redis} (hevolves : s.db.Evolves s.used db') :
    Inv { s with db := db' } :=
  @Inv.move s h db' hevolves none none (fun _ hu => by contradiction) fun _ hu => by contradiction

theorem Inv.set_client (h : s.Inv) (k : ℕ) {client : Client}
    (hclient : client.Grounded s.retention s.db s.used) :
    Inv { s with clients := update s.clients k client } := by
  refine ⟨h.retention_nonneg, h.sound, h.issued, fun j => ?_, h.passes, h.expired, h.once, h.announced⟩
  by_cases hj : j = k
  · subst hj
    simpa using hclient
  · simpa [Function.update_of_ne hj] using h.clients j

theorem Inv.set_pass (h : s.Inv) (i : ℕ) {pass : RecoveryLoop}
    (hpass : pass.Grounded s.retention s.db s.used) :
    Inv { s with passes := update s.passes i pass } := by
  refine ⟨h.retention_nonneg, h.sound, h.issued, h.clients, fun j => ?_, h.expired, h.once, h.announced⟩
  by_cases hj : j = i
  · subst hj
    simpa using hpass
  · simpa [Function.update_of_ne hj] using h.passes j

variable {svc : WatchService} {earliestDelaySeconds : ℚ}

/-- What a step leaves of the watches in use. -/
def Keeps (s s' : OverlapSys) : Prop :=
  s.used ⊆ s'.used ∧ ∀ u ∈ s.used, (s.db.view u).Keeps (s'.db.view u)

theorem Keeps.of_evolves {s' : OverlapSys} (h : s.db.Evolves s.used s'.db) (hused : s'.used = s.used) :
    s.Keeps s' := ⟨hused ▸ List.Subset.refl _, h.keeps⟩

theorem Keeps.of_same {s' : OverlapSys} (hdb : s'.db = s.db) (hused : s'.used = s.used) : s.Keeps s' :=
  ⟨hused ▸ List.Subset.refl _, fun _ _ => hdb ▸ .refl _⟩

/-- What a claim that was handed out says fits. -/
theorem Inv.claimed (h : s.Inv) {u windowId ownerId : String} {lease : Duration} {ignoreSchedule : Bool}
    {c : WindowClaim}
    (hc : (s.db.claimWindow s.now u windowId ownerId lease ignoreSchedule).1 = some (.owned c)) :
    c.watch.watchId ∈ s.used ∧ c.watch.status = .active ∧
      (s.db.view c.watch.watchId).Fits (some c.runtime) := by
  obtain ⟨hwatch, hactive, hruntime⟩ := Redis.claimWindow_owned hc
  obtain rfl : c.watch.watchId = u := h.sound.own u c.watch hwatch
  refine ⟨h.sound.mem_of_live ⟨c.watch, hwatch, hactive⟩, hactive, ?_⟩
  rw [← hruntime]
  exact WatchView.fits_runtime _

/-- Every step keeps the invariant, and keeps the watches in use. -/
theorem Inv.exec (h : s.Inv) {label : OverlapLabel}
    (hallowed : (overlapMachine svc earliestDelaySeconds).allowed s label) :
    ((overlapMachine svc earliestDelaySeconds).exec label s).Inv ∧
      s.Keeps ((overlapMachine svc earliestDelaySeconds).exec label s) := by
  cases label with
  | tick d =>
    exact ⟨⟨h.retention_nonneg, h.sound, h.issued, h.clients, h.passes, h.expired, h.once, h.announced⟩,
      .of_same rfl rfl⟩
  | elapse ms =>
    have hevolves := h.sound.elapse ms
    exact ⟨h.evolve hevolves, .of_evolves hevolves rfl⟩
  | fire key =>
    have htimed : s.db.ttl.get? key ≠ none := by
      intro hnone
      have hdue : (s.db.ttl.get? key).any (fun ms => decide (ms ≤ 0)) = true := hallowed
      simp [hnone] at hdue
    have hevolves := h.sound.del htimed
    exact ⟨h.evolve hevolves, .of_evolves hevolves rfl⟩
  | create watch runtime =>
    have hnew : watch.watchId ∉ s.used := hallowed
    obtain ⟨hsound, hkeeps⟩ := h.sound.create runtime hnew
    have hused : s.used ⊆ watch.watchId :: s.used := List.subset_cons_self _ _
    refine ⟨⟨h.retention_nonneg, hsound, fun c hc => ?_, fun k => (h.clients k).keeps hused hkeeps,
      fun i => (h.passes i).keeps hused hkeeps, fun u hu => ?_, h.once, h.announced⟩, hused, hkeeps⟩
    · obtain ⟨hin, hactive, hfits⟩ := h.issued c hc
      exact ⟨hused hin, hactive, hfits.keeps (hkeeps _ hin)⟩
    · obtain ⟨hin, hgone⟩ := h.expired u hu
      exact ⟨hused hin, fun hlive => hgone ((hkeeps u hin).live hlive)⟩
  | claim u windowId ownerId lease ignoreSchedule =>
    have hevolves := h.sound.claimWindow s.now u windowId ownerId lease ignoreSchedule
    have hnext := h.evolve hevolves
    refine ⟨⟨hnext.retention_nonneg, hnext.sound, fun c hc => ?_, hnext.clients, hnext.passes,
      hnext.expired, hnext.once, hnext.announced⟩, .of_evolves hevolves rfl⟩
    rcases List.mem_append.mp hc with hc | hc
    · -- the claim that this step hands out
      obtain ⟨result, hresult, hclaim⟩ := Option.bind_eq_some_iff.mp (Option.mem_toList.mp hc)
      obtain rfl : result = .owned c := by
        cases result with
        | owned c' => exact congrArg ClaimResult.owned (Option.some.inj hclaim)
        | _ => contradiction
      obtain ⟨hused, hactive, hfits⟩ := h.claimed hresult
      exact ⟨hused, hactive, hfits.keeps (hevolves.keeps _ hused)⟩
    · exact hnext.issued c hc
  | begin claim =>
    obtain ⟨hused, hactive, hfits⟩ := h.issued claim hallowed
    have hevolves := h.sound.beginBooking s.now hfits
    exact ⟨h.evolve hevolves, .of_evolves hevolves rfl⟩
  | commit claim plan =>
    obtain ⟨hissued, hbuilt⟩ := hallowed
    obtain ⟨hused, hactive, hfits⟩ := h.issued claim hissued
    have hevolves := h.sound.commitWindow h.retention_nonneg s.now hbuilt hactive hfits
    exact ⟨h.move hevolves (fun _ => expires_commit h.retention_nonneg hbuilt.watchId)
      fun _ => expires_of_announces, .of_evolves hevolves rfl⟩
  | release claim =>
    have hevolves : s.db.Evolves s.used (s.db.releaseClaim claim).2 :=
      h.sound.evolves_same (s.db.view_releaseClaim claim) fun v hv => by
        rwa [s.db.active_releaseClaim] at hv
    exact ⟨h.evolve hevolves, .of_evolves hevolves rfl⟩
  | cancel k _ => exact ⟨h.set_client k trivial, .of_same rfl rfl⟩
  | step k =>
    obtain ⟨hevolves, hnext⟩ := (h.clients k).step h.retention_nonneg h.sound s.now
    exact ⟨(h.evolve hevolves).set_client k hnext, .of_evolves hevolves rfl⟩
  | start i => exact ⟨h.set_pass i trivial, .of_same rfl rfl⟩
  | sweep i =>
    obtain ⟨hevolves, hnext⟩ := (h.passes i).step earliestDelaySeconds h.retention_nonneg h.sound s.now
    have hmove := h.move hevolves ((h.passes i).expired h.retention_nonneg s.now)
      ((h.passes i).owed s.now)
    exact ⟨hmove.set_pass i hnext, .of_evolves hevolves rfl⟩
  | fail i =>
    refine ⟨h.set_pass i ?_, .of_same rfl rfl⟩
    have hpass := h.passes i
    cases hi : s.passes i with
    | reconciling started todo =>
      rw [hi] at hpass
      cases todo with
      | nil => trivial
      | cons c todo => exact fun c hc => hpass c (List.mem_cons_of_mem _ hc)
    | expiring started call todo =>
      rw [hi] at hpass
      exact hpass.2
    | _ => trivial
  | crash i => exact ⟨h.set_pass i trivial, .of_same rfl rfl⟩
  | notify u =>
    have hu : u ∈ s.owed := hallowed
    refine ⟨⟨h.retention_nonneg, h.sound, h.issued, h.clients, h.passes, h.expired, h.once, fun v => ?_⟩,
      .of_same rfl rfl⟩
    have hcount := h.announced v
    change (s.owed.erase u).count v + (u :: s.notified).count v ≤ s.expiries.count v
    by_cases hv : v = u
    · subst hv
      have hpos : 0 < s.owed.count v := List.count_pos_iff.mpr hu
      rw [List.count_erase_self, List.count_cons_self]
      omega
    · rw [List.count_erase_of_ne hv, List.count_cons_of_ne (Ne.symm hv)]
      exact hcount

/-- The invariant holds in every reachable state. -/
theorem inv (h : (overlapMachine svc earliestDelaySeconds).Reach s) : s.Inv := by
  refine h.invariant (fun s hi => ?_) fun s label _ hinv ha => (hinv.exec ha).1
  obtain ⟨hret, hsound, hissued, hclients, hpasses, hexpiries, howed, hnotified⟩ := hi
  refine ⟨hret, hsound, ?_, fun k => ?_, fun i => ?_, ?_, ?_, ?_⟩
  · simp [hissued]
  · rw [hclients]
    trivial
  · rw [hpasses]
    trivial
  · simp [hexpiries]
  · simp [hexpiries]
  · simp [howed, hnotified]

/-- What is kept of a watch in use is so in every later state. -/
theorem later_keeps {P : WatchView → Prop} (hP : ∀ x x' : WatchView, x.Keeps x' → P x → P x') {u : String}
    (hs : (overlapMachine svc earliestDelaySeconds).Reach s) {s' : OverlapSys}
    (hl : (overlapMachine svc earliestDelaySeconds).Later s s') (hu : u ∈ s.used) (h : P (s.db.view u)) :
    P (s'.db.view u) := by
  have hstable := hl.stable (P := fun s => u ∈ s.used ∧ P (s.db.view u)) (fun s label hr hp ha => by
    obtain ⟨hused, hkeeps⟩ := ((inv hr).exec ha).2
    exact ⟨hused hp.1, hP _ _ (hkeeps u hp.1) hp.2⟩) hs ⟨hu, h⟩
  exact hstable.2

/-- Nothing goes back from one state to the other: no revision, no cadence, no fence, and no watch that
is finished. -/
structure Forward (s s' : OverlapSys) : Prop where
  version : ∀ u r r', s.db.runtimes.get? u = some r → s'.db.runtimes.get? u = some r' →
    r.revision ≤ r'.revision ∧ r.cadenceSequence ≤ r'.cadenceSequence
  fence : ∀ u n n', s.db.fence.get? u = some n → s'.db.fence.get? u = some n' → n ≤ n'
  finished : ∀ u w w', s.db.watches.get? u = some w → w.status ≠ .active →
    s'.db.watches.get? u = some w' → w'.status ≠ .active

/-- Later states are forward. -/
theorem forward (hs : (overlapMachine svc earliestDelaySeconds).Reach s) {s' : OverlapSys}
    (hl : (overlapMachine svc earliestDelaySeconds).Later s s') : s.Forward s' := by
  have hsound := (inv hs).sound
  have hused : ∀ u, ((s.db.view u).watch ≠ none ∨ (s.db.view u).runtime ≠ none ∨
      (s.db.view u).fence ≠ none) → u ∈ s.used := by
    intro u hu
    by_contra hno
    obtain ⟨hwatch, hruntime, hfence⟩ := hsound.vacant u hno
    simp [hwatch, hruntime, hfence] at hu
  refine ⟨fun u r r' hr hr' => ?_, fun u n n' hn hn' => ?_, fun u w w' hw hended hw' hactive => ?_⟩
  · have hruntime : (s.db.view u).runtime = some r := hr
    have hbeyond := later_keeps (fun _ _ hk => WatchView.Beyond.keeps hk) hs hl
      (hused u (by simp [hruntime])) (P := WatchView.Beyond r)
      ⟨fun _ => by simp [hruntime], fun r₁ hr₁ => by
        obtain rfl := Option.some.inj (hruntime.symm.trans hr₁)
        exact ⟨le_refl _, le_refl _⟩⟩
    exact hbeyond.2 r' hr'
  · have hfence : (s.db.view u).fence = some n := hn
    have hraised := later_keeps (fun _ _ hk => WatchView.Raised.keeps hk) hs hl
      (hused u (by simp [hfence])) (P := WatchView.Raised n)
      ⟨fun _ => by simp [hfence], fun n₁ hn₁ => by
        obtain rfl := Option.some.inj (hfence.symm.trans hn₁)
        exact le_refl _⟩
    exact hraised.2 n' hn'
  · have hwatch : (s.db.view u).watch = some w := hw
    have hgone := later_keeps (P := fun x => ¬ x.Live) (fun _ _ hk hx hx' => hx (hk.live hx')) hs hl
      (hused u (by simp [hwatch])) (by
        rintro ⟨w₁, hw₁, hactive₁⟩
        obtain rfl := Option.some.inj (hwatch.symm.trans hw₁)
        exact hended hactive₁)
    exact hgone ⟨w', hw', hactive⟩

end OverlapSys

/-- The database holds the same of a watch as before. -/
structure Redis.SameKeys (db db' : Redis) (u : String) : Prop where
  watch : db'.watches.get? u = db.watches.get? u
  runtime : db'.runtimes.get? u = db.runtimes.get? u
  fence : db'.fence.get? u = db.fence.get? u
  claim : db'.claims.get? u = db.claims.get? u
  score : db'.schedule.get? u = db.schedule.get? u
  all : u ∈ db'.all ↔ u ∈ db.all
  active : u ∈ db'.active ↔ u ∈ db.active

namespace Redis

theorem SameKeys.refl (db : Redis) (u : String) : db.SameKeys db u := ⟨rfl, rfl, rfl, rfl, rfl, .rfl, .rfl⟩

/-- Keys outside the view. -/
theorem SameKeys.of_view {db db' : Redis} {u : String} (hview : db'.view u = db.view u)
    (hclaim : db'.claims.get? u = db.claims.get? u) (hall : u ∈ db'.all ↔ u ∈ db.all)
    (hactive : u ∈ db'.active ↔ u ∈ db.active) : db.SameKeys db' u :=
  ⟨congrArg WatchView.watch hview, congrArg WatchView.runtime hview, congrArg WatchView.fence hview,
    hclaim, congrArg WatchView.score hview, hall, hactive⟩

/-- Pruning is about one watch. -/
theorem sameKeys_prune (db : Redis) {u v : String} (h : v ≠ u) (fromAll : Bool) :
    db.SameKeys (db.pruneIndexMember u fromAll) v := by
  have hview : (db.pruneIndexMember u fromAll).view v = db.view v := by
    rw [view_pruneIndexMember]
    split_ifs
    · exact Function.update_of_ne h ..
    · rfl
  cases fromAll with
  | false => exact .of_view hview rfl .rfl (List.mem_erase_of_ne h)
  | true =>
    refine .of_view hview ?_ (List.mem_erase_of_ne h) (List.mem_erase_of_ne h)
    simp [pruneIndexMember, del, Dict.get?_erase_ne, Ne.symm h]

/-- A repair leaves a watch that has its marker alone. -/
theorem sameKeys_synthesize (db : Redis) (now : Time) (u : String) (repaired : WatchRuntime) {v : String}
    (hmarked : db.schedule.get? v ≠ none) : db.SameKeys (db.synthesizeMarker now u repaired).2 v := by
  rcases view_synthesizeMarker db now u repaired with hdb | ⟨w, ms, -, -, hscore, hview⟩
  · rw [hdb]
    exact .refl db v
  · have hv : v ≠ u := by
      rintro rfl
      exact hmarked hscore
    have hrest : (db.synthesizeMarker now u repaired).2.claims = db.claims ∧
        (db.synthesizeMarker now u repaired).2.all = db.all := by
      unfold synthesizeMarker synthesizeScript
      repeat' split
      all_goals exact ⟨rfl, rfl⟩
    refine .of_view ?_ ?_ ?_ ?_
    · rw [hview, Function.update_of_ne hv]
    · rw [hrest.1]
    · rw [hrest.2]
    · rw [active_synthesizeMarker]

end Redis

/-- Overlapping passes are harmless. In every reachable state, every watch was expired and its expiry
announced at most once, and nothing goes back from there; the next repair of a marker leaves every watch
alone that has one, and the next pruning every active watch. -/
theorem overlapping_passes_harmless (svc : WatchService) (earliestDelaySeconds : ℚ) {s : OverlapSys}
    (hs : (overlapMachine svc earliestDelaySeconds).Reach s) :
    (∀ u, s.expiries.count u ≤ 1 ∧ s.notified.count u ≤ 1) ∧
      (∀ s', (overlapMachine svc earliestDelaySeconds).Later s s' → s.Forward s') ∧
      ∀ i,
        (∀ repaired, (s.passes i).action earliestDelaySeconds = some (.synthesize repaired) →
          ∀ u, s.db.schedule.get? u ≠ none →
            s.db.SameKeys ((overlapMachine svc earliestDelaySeconds).exec (.sweep i) s).db u) ∧
        (∀ fromAll, (s.passes i).action earliestDelaySeconds = some (.prune fromAll) →
          ∀ u w, s.db.watches.get? u = some w → w.status = .active →
            s.db.SameKeys ((overlapMachine svc earliestDelaySeconds).exec (.sweep i) s).db u) := by
  have hinv := OverlapSys.inv hs
  refine ⟨fun u => ?_, fun s' hl => OverlapSys.forward hs hl, fun i => ⟨?_, ?_⟩⟩
  · have honce : s.expiries.count u ≤ 1 := List.nodup_iff_count_le_one.mp hinv.once u
    have hannounced := hinv.announced u
    exact ⟨honce, by omega⟩
  · intro repaired haction u hmarked
    change s.db.SameKeys ((s.passes i).step earliestDelaySeconds s.retention s.now s.db).db u
    unfold RecoveryLoop.action at haction
    split at haction
    next started c todo hi =>
      rw [hi]
      simp only [RecoveryLoop.step, haction]
      exact s.db.sameKeys_synthesize s.now c.watchId repaired hmarked
    next => contradiction
  · intro fromAll haction u w hw hactive
    change s.db.SameKeys ((s.passes i).step earliestDelaySeconds s.retention s.now s.db).db u
    unfold RecoveryLoop.action at haction
    have hpass := hinv.passes i
    split at haction
    next started c todo hi =>
      rw [hi] at hpass ⊢
      simp only [RecoveryLoop.step, haction]
      have hu : u ≠ c.watchId := by
        rintro rfl
        exact (hpass c List.mem_cons_self).ended (reconcileAction_prune haction) ⟨w, hw, hactive⟩
      exact s.db.sameKeys_prune hu fromAll
    next => contradiction

/-- A record from before the sidecars, in the active index, whose time is over after a second. -/
def overdueDb : Redis :=
  { Redis.empty with
    watches := Dict.empty.insert "w" (Watch.sample "w" true 1000000 5)
    all := ["w"]
    active := ["w"] }

/-- The system that two coordinators find. -/
def overdueFound : OverlapSys :=
  ⟨2000000, 60000000, overdueDb, ["w"], [], fun _ => .idle, fun _ => .idle, [], [], []⟩

theorem overdueFound_init : (overlapMachine .sample 50).init overdueFound := by
  have hview : ∀ u, u ≠ "w" → overdueDb.view u = ⟨none, none, none, none, none, none⟩ := by
    intro u hu
    simp [Redis.view, overdueDb, Redis.empty, Dict.get?_insert_ne, Ne.symm hu]
  refine ⟨by decide, ⟨fun u w hw => ?_, fun u _ => ⟨rfl, rfl⟩, fun u hu => ?_, fun u hu => hu⟩, rfl,
    fun _ => rfl, fun _ => rfl, rfl, rfl, rfl⟩
  · by_cases hu : u = "w"
    · subst hu
      obtain rfl : Watch.sample "w" true 1000000 5 = w := Option.some.inj hw
      rfl
    · change (overdueDb.view u).watch = some w at hw
      rw [hview u hu] at hw
      contradiction
  · change (overdueDb.view u).watch = none ∧ (overdueDb.view u).runtime = none ∧ (overdueDb.view u).fence = none
    rw [hview u (by simpa [overdueFound] using hu)]
    exact ⟨rfl, rfl, rfl⟩

/-- Two coordinators list the watch, both read that its time is over, and both send their expiry. -/
def racingRun : List OverlapLabel :=
  [.start 0, .start 1] ++ List.replicate 9 (.sweep 0) ++ List.replicate 10 (.sweep 1) ++
    [.sweep 0, .notify "w"]

/-- The system after the run `racingRun`. -/
def racedSys : OverlapSys := (overlapMachine .sample 50).final overdueFound racingRun

/-- Only one of the two expires the watch, and its expiry is announced once. -/
theorem overlapping_passes_harmless_racing :
    racedSys.expiries = ["w"] ∧ racedSys.notified.count "w" ≤ 1 := by
  have hruns : (overlapMachine .sample 50).Runs overdueFound racingRun := by decide +kernel
  exact ⟨by decide +kernel, ((overlapping_passes_harmless .sample 50
    ((Machine.Reach.init overdueFound_init).final hruns)).1 "w").2⟩

end Dibs
