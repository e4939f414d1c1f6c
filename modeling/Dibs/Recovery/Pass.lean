import Dibs.Recovery.Database

/-!
# A recovery pass

`RecoveryCoordinator._run_pass` in `backend/services/watch_recovery.py` over a database in any state,
without another client's step in between and without a store call that fails: every candidate is
reconciled as it was listed, then the markers that are due are dispatched, then the terminal retention
is cleaned up.

A record that has its member in the schedule is left alone, whatever its sidecar says. But
`due_schedule_markers` reads the due time from the sidecar and skips a member without one. So the pass
recovers exactly the records whose member, if there is one, has a sidecar with a window and a due time
to go with it (`recovered_iff`).
-/

namespace Dibs

/-- A schedule member and a sidecar that tell one due time: the sidecar has a window that is due by the
deadline, and the score is not later. -/
def WatchKeys.Scheduled (keys : WatchKeys) (expiresAt : Time) : Prop :=
  ∃ runtime window due score, keys.runtime = some runtime ∧ runtime.windowId = some window ∧
    runtime.scheduledFor = some due ∧ due ≤ expiresAt ∧ keys.score = some score ∧ score ≤ toMs due

namespace RecoveryDb

/-- A watch is polled in time: it has a window, due by its deadline, that the dispatcher finds as soon as
the due time enters the horizon, unless its batch is full, and that can be claimed once it is due. -/
def Pollable (d : RecoveryDb) (u : String) (expiresAt since : Time) : Prop :=
  ∃ window due, due ≤ expiresAt ∧
    (∀ now horizonSeconds limit, due ≤ now + timedelta horizonSeconds →
      ((d.db.schedule.rangeByScore (toMs (now + timedelta horizonSeconds))).length : ℤ) ≤ limit →
      ⟨u, window, due⟩ ∈ d.dueScheduleMarkers now horizonSeconds limit) ∧
    ∀ now ownerId leaseMs, since ≤ now → due ≤ now → 0 < leaseMs →
      d.Accepts (toMs now) u window ownerId leaseMs

/-- What the dispatcher finds of a watch. -/
theorem mem_dueScheduleMarkers {d : RecoveryDb} {now : Time} {horizonSeconds : ℚ} {limit : ℤ}
    {marker : ScheduleMarker} (h : marker ∈ d.dueScheduleMarkers now horizonSeconds limit) :
    ∃ runtime score, (d.keys marker.watchId).runtime = some runtime ∧
      runtime.windowId = some marker.windowId ∧ runtime.scheduledFor = some marker.scheduledFor ∧
      (d.keys marker.watchId).score = some score ∧ score ≤ toMs (now + timedelta horizonSeconds) := by
  obtain ⟨u, hu, hmarker⟩ := List.mem_filterMap.mp h
  obtain ⟨score, hscore, hle⟩ := (Dict.mem_rangeByScore _).mp (List.mem_of_mem_take hu)
  split at hmarker
  next runtime hruntime =>
    split at hmarker
    next window due hwindow hdue =>
      obtain rfl := Option.some.inj hmarker
      exact ⟨runtime, score, hruntime, hwindow, hdue, hscore, hle⟩
    next => contradiction
  next => contradiction

/-- An active watch without a live claim is polled in time exactly when its member and its sidecar tell
one due time. -/
theorem pollable_iff (d : RecoveryDb) {u : String} {w : Watch} {expiresAt since : Time}
    (hw : (d.keys u).watch = some w) (hactive : w.status = .active)
    (hfree : NoLiveClaim (d.keys u).claim (toMs since)) :
    d.Pollable u expiresAt since ↔ (d.keys u).Scheduled expiresAt := by
  constructor
  · rintro ⟨window, due, hdeadline, hfound, -⟩
    -- The dispatcher looks at the very moment that the window is due.
    have hzero : due + timedelta 0 = due := by
      have : timedelta 0 = 0 := by decide +kernel
      rw [this]
      exact add_zero (due : ℤ)
    have hmem := hfound due 0 _ (le_of_eq hzero.symm) le_rfl
    obtain ⟨runtime, score, hruntime, hwindow, hdue, hscore, hle⟩ := mem_dueScheduleMarkers hmem
    rw [hzero] at hle
    exact ⟨runtime, window, due, score, hruntime, hwindow, hdue, hdeadline, hscore, hle⟩
  · rintro ⟨runtime, window, due, score, hruntime, hwindow, hdue, hdeadline, hscore, hle⟩
    refine ⟨window, due, hdeadline, ?_, ?_⟩
    · intro now horizonSeconds limit hhorizon hlimit
      have hrange : u ∈ d.db.schedule.rangeByScore (toMs (now + timedelta horizonSeconds)) :=
        (Dict.mem_rangeByScore _).mpr ⟨score, hscore, hle.trans (toMs_mono hhorizon)⟩
      refine List.mem_filterMap.mpr ⟨u, ?_, ?_⟩
      · rw [List.take_of_length_le (by omega)]
        exact hrange
      · have hget : d.db.getRuntime u = some runtime := hruntime
        simp only [hget, hwindow, hdue]
    · intro now ownerId leaseMs hsince hnow hlease
      have hgarbled : u ∉ d.garbled := by
        intro hu
        have hnone : (d.keys u).runtime = none := d.garbled_runtimes u hu
        rw [hruntime] at hnone
        contradiction
      exact ⟨hgarbled, w, runtime, Redis.claimScript_owned ownerId hw hactive hruntime hwindow hscore
        (hle.trans (toMs_mono hnow)) (hfree.mono (toMs_mono hsince)).2 hlease⟩

end RecoveryDb

/-- The configuration of a coordinator with its dispatcher, and the instants of a pass by the clocks of
its process. -/
structure RecoveryPass where
  earliestDelaySeconds : ℚ
  retention : Duration
  /-- `WATCH_TERMINAL_RETENTION_SECONDS` must be at least 3600. -/
  retention_bound : 3600 * 1000000 ≤ retention
  cleanupBatchSize : ℕ
  ownerId : String
  horizonSeconds : ℚ
  dispatchLease : Duration
  recoveryGraceSeconds : ℚ
  dispatchBatchSize : ℤ
  /-- Whether the queue takes a publication. -/
  takes : ScheduleMarker → Bool
  /-- `_run_pass` reads the clock. -/
  started : Time
  /-- `list_recovery_candidates` reads it. -/
  listed : Time
  /-- The call for a candidate reads it. -/
  repaired : String → Time
  /-- `dispatch_due` reads it. -/
  swept : Time
  /-- `claim_dispatch` reads it. -/
  claimed : ScheduleMarker → Time
  /-- `mark_dispatched` reads it. -/
  marked : ScheduleMarker → Time
  started_le : started ≤ listed
  listed_le : ∀ u, listed ≤ repaired u

namespace RecoveryPass

variable (pass : RecoveryPass)

theorem retention_nonneg : 0 ≤ pass.retention := le_trans (by norm_num) pass.retention_bound

/-- `_reconcile_one`; none when a store call fails. -/
def reconcileOne (d : RecoveryDb) (candidate : RecoveryCandidate) : Option RecoveryDb :=
  let u := candidate.watchId
  match reconcileAction pass.earliestDelaySeconds candidate pass.started with
  | some (.prune fromAll) => some (d.prune u fromAll)
  | some .expire => some (d.expire pass.retention_nonneg (pass.repaired u) u)
  | some (.synthesize runtime) => d.synthesize (pass.repaired u) u runtime
  | some .deferred | some .preserved | none => some d

/-- The loop over the candidates. -/
def reconcileAll : List RecoveryCandidate → RecoveryDb → Option RecoveryDb
  | [], d => some d
  | candidate :: rest, d => (pass.reconcileOne d candidate).bind (reconcileAll rest)

/-- `_dispatch_one`, as far as the database goes. -/
def dispatchOne (d : RecoveryDb) (marker : ScheduleMarker) : Option RecoveryDb :=
  let claimed := d.dispatched
    (d.db.claimDispatch_only (pass.claimed marker) marker pass.ownerId pass.dispatchLease)
  match (d.db.claimDispatch (pass.claimed marker) marker pass.ownerId pass.dispatchLease).1 with
  | none => none
  | some .busy | some .stale => some claimed
  | some (.claimed claim) =>
    if pass.takes marker then
      let after := max marker.scheduledFor pass.swept + timedelta pass.recoveryGraceSeconds
      (claimed.db.markDispatched (pass.marked marker) claim after).1.map fun _ =>
        claimed.dispatched (claimed.db.markDispatched_only (pass.marked marker) claim after)
    else
      (claimed.db.releaseDispatch claim).1.map fun _ =>
        claimed.dispatched (claimed.db.releaseDispatch_only claim)

/-- The loop of `dispatch_due`. -/
def dispatchAll : List ScheduleMarker → RecoveryDb → Option RecoveryDb
  | [], d => some d
  | marker :: rest, d => (pass.dispatchOne d marker).bind (dispatchAll rest)

/-- `_run_pass`; none when a store call fails. -/
def run (d : RecoveryDb) : Option RecoveryDb := do
  let d ← pass.reconcileAll (d.listRecoveryCandidates (toMs pass.listed)) d
  let d ← pass.dispatchAll
    (d.dueScheduleMarkers pass.swept pass.horizonSeconds pass.dispatchBatchSize) d
  return d.cleanupDue pass.started pass.cleanupBatchSize

/-! ## What a pass leaves of one record -/

/-- Reconciling a candidate is about one watch. -/
theorem reconcileOne_keys_ne {d d' : RecoveryDb} {candidate : RecoveryCandidate} {v : String}
    (hd : pass.reconcileOne d candidate = some d') (h : v ≠ candidate.watchId) : d'.keys v = d.keys v := by
  unfold reconcileOne at hd
  dsimp only at hd
  split at hd
  · obtain rfl := Option.some.inj hd
    exact d.prune_keys_ne h _
  · obtain rfl := Option.some.inj hd
    exact d.expire_keys_ne _ _ h
  · exact RecoveryDb.synthesize_keys_ne hd h
  all_goals
    obtain rfl := Option.some.inj hd
    rfl

/-- Reconciling other candidates leaves the keys of a watch alone. -/
theorem reconcileAll_keys_ne {candidates : List RecoveryCandidate} {d d' : RecoveryDb} {v : String}
    (hd : pass.reconcileAll candidates d = some d') (h : ∀ c ∈ candidates, v ≠ c.watchId) :
    d'.keys v = d.keys v := by
  induction candidates generalizing d with
  | nil =>
    obtain rfl := Option.some.inj hd
    rfl
  | cons candidate rest ih =>
    obtain ⟨hcandidate, hrest⟩ := List.forall_mem_cons.mp h
    obtain ⟨d₁, hone, hall⟩ := Option.bind_eq_some_iff.mp hd
    rw [ih hall hrest, pass.reconcileOne_keys_ne hone hcandidate]

/-- The loop reconciles the candidate of a watch on the keys that the watch had before it. -/
theorem reconcileAll_keys {candidates : List RecoveryCandidate} {d d' : RecoveryDb}
    (hd : pass.reconcileAll candidates d = some d')
    (hnodup : (candidates.map RecoveryCandidate.watchId).Nodup) {candidate : RecoveryCandidate}
    (hmem : candidate ∈ candidates) :
    ∃ d₁ d₂, d₁.keys candidate.watchId = d.keys candidate.watchId ∧
      pass.reconcileOne d₁ candidate = some d₂ ∧ d'.keys candidate.watchId = d₂.keys candidate.watchId := by
  induction candidates generalizing d with
  | nil => contradiction
  | cons head rest ih =>
    obtain ⟨hhead, hrest⟩ := List.nodup_cons.mp hnodup
    obtain ⟨d₁, hone, hall⟩ := Option.bind_eq_some_iff.mp hd
    rcases List.mem_cons.mp hmem with rfl | hmem
    · refine ⟨d, d₁, rfl, hone, pass.reconcileAll_keys_ne hall fun c hc heq => hhead ?_⟩
      exact List.mem_map.mpr ⟨c, hc, heq.symm⟩
    · obtain ⟨d₂, d₃, hbefore, hstep, hafter⟩ := ih hall hrest hmem
      refine ⟨d₂, d₃, hbefore.trans (pass.reconcileOne_keys_ne hone fun heq => hhead ?_), hstep, hafter⟩
      exact List.mem_map.mpr ⟨candidate, hmem, heq⟩

/-- Dispatching changes the keys of no watch. -/
theorem dispatchOne_keys {d d' : RecoveryDb} {marker : ScheduleMarker}
    (hd : pass.dispatchOne d marker = some d') (u : String) : d'.keys u = d.keys u := by
  unfold dispatchOne at hd
  dsimp only at hd
  split at hd
  · contradiction
  · obtain rfl := Option.some.inj hd
    exact d.dispatched_keys _ u
  · obtain rfl := Option.some.inj hd
    exact d.dispatched_keys _ u
  · split_ifs at hd <;> obtain ⟨_, -, rfl⟩ := Option.map_eq_some_iff.mp hd
    · rw [RecoveryDb.dispatched_keys, RecoveryDb.dispatched_keys]
    · rw [RecoveryDb.dispatched_keys, RecoveryDb.dispatched_keys]

theorem dispatchAll_keys {markers : List ScheduleMarker} {d d' : RecoveryDb}
    (hd : pass.dispatchAll markers d = some d') (u : String) : d'.keys u = d.keys u := by
  induction markers generalizing d with
  | nil =>
    obtain rfl := Option.some.inj hd
    rfl
  | cons marker rest ih =>
    obtain ⟨d₁, hone, hall⟩ := Option.bind_eq_some_iff.mp hd
    rw [ih hall, pass.dispatchOne_keys hone]

/-- The dispatches and the cleanup come after the reconciliation, which meets the candidate of a watch on
the keys that the pass began with. -/
theorem run_keys {d d' : RecoveryDb} {u : String} (hd : pass.run d = some d') (hu : u ∈ d.db.active) :
    ∃ d₁ d₂ d₃ : RecoveryDb, d₁.keys u = d.keys u ∧
      pass.reconcileOne d₁ (d.candidate (toMs pass.listed) u) = some d₂ ∧ d₃.keys u = d₂.keys u ∧
      d' = d₃.cleanupDue pass.started pass.cleanupBatchSize := by
  obtain ⟨reconciled, hreconciled, hd⟩ := Option.bind_eq_some_iff.mp hd
  obtain ⟨dispatched, hdispatched, hd⟩ := Option.bind_eq_some_iff.mp hd
  have hperm : (d.db.active.insertionSort (· ≤ ·)).Perm d.db.active := List.perm_insertionSort ..
  have hids : (d.listRecoveryCandidates (toMs pass.listed)).map RecoveryCandidate.watchId =
      d.db.active.insertionSort (· ≤ ·) := by
    simp [RecoveryDb.listRecoveryCandidates, RecoveryDb.candidate, Function.comp_def]
  obtain ⟨d₁, d₂, hbefore, hstep, hafter⟩ := pass.reconcileAll_keys hreconciled
    (by rw [hids]; exact hperm.nodup_iff.mpr d.active_nodup)
    (List.mem_map.mpr ⟨u, hperm.mem_iff.mpr hu, rfl⟩)
  exact ⟨d₁, d₂, dispatched, hbefore, hstep, (pass.dispatchAll_keys hdispatched u).trans hafter,
    (Option.some.inj hd).symm⟩

/-- What a pass has to make of an active-indexed record: out of the index if it is terminal, expired if
its time or its attempts are over, and polled in time otherwise, unless a live claim works on it. -/
def Recovered (d d' : RecoveryDb) (u : String) (w : Watch) : Prop :=
  (w.status.isTerminal = true → u ∉ d'.db.active) ∧
  (w.status = .active → w.isExhausted pass.started = true →
    ∃ w', d'.db.watches.get? u = some w' ∧ w'.status = .expired) ∧
  (w.status = .active → w.isExhausted pass.started = false →
    NoLiveClaim (d.db.claims.get? u) (toMs pass.listed) → d'.Pollable u w.expiresAt pass.listed)

/-- The records that a pass recovers: an active one that is not exhausted and has no live claim needs, if its schedule
member is there, a sidecar that tells the same due time. -/
def Recoverable (d : RecoveryDb) (u : String) (w : Watch) : Prop :=
  w.status = .active → w.isExhausted pass.started = false → NoLiveClaim (d.db.claims.get? u) (toMs pass.listed) →
    d.db.schedule.contains u = true → (d.keys u).Scheduled w.expiresAt

variable {pass} {d d' : RecoveryDb} {u : String} {w : Watch}

/-- A terminal record leaves the active index. -/
theorem terminal_leaves (hd : pass.run d = some d') (hu : u ∈ d.db.active) (hw : d.db.get u = some w)
    (hterminal : w.status.isTerminal = true) : u ∉ d'.db.active := by
  obtain ⟨d₁, d₂, d₃, -, hstep, hafter, rfl⟩ := pass.run_keys hd hu
  have haction : reconcileAction pass.earliestDelaySeconds (d.candidate (toMs pass.listed) u) pass.started =
      some (.prune false) := by
    simp only [reconcileAction, RecoveryDb.candidate, hw, hterminal, if_true]
  simp only [reconcileOne, haction, Option.some.injEq] at hstep
  obtain rfl := hstep
  have hpruned : (d₃.keys u).active = false := by
    rw [hafter]
    exact congrArg WatchKeys.active (d₁.prune_keys_self u)
  exact of_decide_eq_false (d₃.cleanupDue_active pass.started pass.cleanupBatchSize hpruned)

/-- An exhausted record expires. -/
theorem exhausted_expires (hd : pass.run d = some d') (hu : u ∈ d.db.active) (hw : d.db.get u = some w)
    (hdecodes : d.Decodes) (hactive : w.status = .active) (hdue : w.isExhausted pass.started = true) :
    ∃ w', d'.db.watches.get? u = some w' ∧ w'.status = .expired := by
  obtain ⟨d₁, d₂, d₃, hbefore, hstep, hafter, rfl⟩ := pass.run_keys hd hu
  have hwatch : d.db.watches.get? u = some w := (Option.filter_eq_some_iff.mp hw).1
  have hterminal : w.status.isTerminal = false := by simpa using hactive
  have haction : reconcileAction pass.earliestDelaySeconds (d.candidate (toMs pass.listed) u) pass.started =
      some .expire := by
    simp only [reconcileAction, RecoveryDb.candidate, hw, hterminal, hdue, if_true, Bool.false_eq_true,
      if_false]
  simp only [reconcileOne, haction, Option.some.injEq] at hstep
  obtain rfl := hstep
  -- The script works on what the pass began with, at a later moment.
  have hwatch₁ : d₁.db.watches.get? u = some w := (congrArg WatchKeys.watch hbefore).trans hwatch
  have hruntime₁ : d₁.db.runtimes.get? u = d.db.runtimes.get? u := congrArg WatchKeys.runtime hbefore
  have hw₁ : d₁.db.get u = some w :=
    Option.filter_eq_some_iff.mpr ⟨hwatch₁, (Option.filter_eq_some_iff.mp hw).2⟩
  have hlater : pass.started ≤ pass.repaired u := pass.started_le.trans (pass.listed_le u)
  have hdue₁ : w.isExhausted (pass.repaired u) = true := by
    simp only [Watch.isExhausted, Bool.or_eq_true, decide_eq_true_eq] at hdue ⊢
    exact hdue.imp_right fun h => le_trans h hlater
  have hover : d₁.db.overtaken u (casRevision (d₁.db.getRuntime u)) = false := by
    refine Redis.overtaken_self fun r hr => hdecodes u r ?_
    rwa [← hruntime₁]
  obtain ⟨hended, hdeadline⟩ := d₁.expire_keys_self pass.retention_nonneg _ hw₁ hactive hdue₁ hover
  have hahead : toMs pass.started < toMs (pass.repaired u + pass.retention) := by
    have hretention : (4000 : ℤ) ≤ pass.retention := le_trans (by decide) pass.retention_bound
    calc toMs pass.started ≤ toMs (pass.repaired u) := toMs_mono hlater
      _ < toMs (pass.repaired u + pass.retention) := toMs_lt (Int.add_le_add_left hretention _)
  have hcleaned := d₃.cleanupDue_keys_later pass.cleanupBatchSize
    ((congrArg WatchKeys.deadline hafter).trans hdeadline) hahead
  exact ⟨_, (congrArg WatchKeys.watch (hcleaned.trans hafter)).trans hended, rfl⟩

/-- Another record without a live claim is polled in time exactly when it has no schedule member, or one
that its sidecar tells the due time of. -/
theorem polled_iff (hd : pass.run d = some d') (hu : u ∈ d.db.active) (hw : d.db.get u = some w)
    (hactive : w.status = .active) (hdue : w.isExhausted pass.started = false)
    (hfree : NoLiveClaim (d.db.claims.get? u) (toMs pass.listed)) :
    d'.Pollable u w.expiresAt pass.listed ↔
      (d.db.schedule.contains u = true → (d.keys u).Scheduled w.expiresAt) := by
  obtain ⟨d₁, d₂, d₃, hbefore, hstep, hafter, rfl⟩ := pass.run_keys hd hu
  have hwatch : (d.keys u).watch = some w := (Option.filter_eq_some_iff.mp hw).1
  have hterminal : w.status.isTerminal = false := by simpa using hactive
  -- What the reconciliation leaves of the keys decides: the cleanup changes nothing that counts.
  have hfinal : (d₂.keys u).watch = some w → (d₂.keys u).claim = (d.keys u).claim →
      ((d₃.cleanupDue pass.started pass.cleanupBatchSize).Pollable u w.expiresAt pass.listed ↔
        (d₂.keys u).Scheduled w.expiresAt) := by
    intro hwatch₂ hclaim₂
    have hkept : ∀ w, (d₃.keys u).watch = some w → w.status = .active := by
      intro v hv
      rw [hafter, hwatch₂] at hv
      obtain rfl := Option.some.inj hv
      exact hactive
    obtain ⟨deadline, hcleaned⟩ := d₃.cleanupDue_keys_active pass.started pass.cleanupBatchSize hkept
    rw [hafter] at hcleaned
    rw [RecoveryDb.pollable_iff _ ((congrArg WatchKeys.watch hcleaned).trans hwatch₂) hactive, hcleaned]
    · exact Iff.rfl
    · rw [hcleaned]
      change NoLiveClaim (d₂.keys u).claim _
      rw [hclaim₂]
      exact hfree
  cases hscore : d.db.schedule.contains u with
  | true =>
    -- The record is preserved.
    have haction : reconcileAction pass.earliestDelaySeconds (d.candidate (toMs pass.listed) u)
        pass.started = some .preserved := by
      simp only [reconcileAction, RecoveryDb.candidate, hw, hterminal, hdue, hfree.1, hscore,
        Bool.false_eq_true, if_false, Bool.not_true]
    simp only [reconcileOne, haction, Option.some.injEq] at hstep
    obtain rfl := hstep
    rw [hfinal ((congrArg WatchKeys.watch hbefore).trans hwatch) (congrArg WatchKeys.claim hbefore), hbefore]
    exact ⟨fun h _ => h, fun h => h rfl⟩
  | false =>
    -- The record gets a sidecar and a member.
    obtain ⟨repaired, window, due, hrepaired, hwindow, hsched, hdeadline⟩ :=
      markerRuntime_spec pass.earliestDelaySeconds u (d.db.getRuntime u) pass.started hactive
    have haction : reconcileAction pass.earliestDelaySeconds (d.candidate (toMs pass.listed) u)
        pass.started = some (.synthesize repaired) := by
      simp only [reconcileAction, RecoveryDb.candidate, hw, hterminal, hdue, hfree.1, hscore, hrepaired,
        Bool.false_eq_true, if_false, Bool.not_false, if_true, Option.map_some]
    simp only [reconcileOne, haction] at hstep
    have hms : scheduledMs repaired = some (toMs due) := by
      simp only [scheduledMs, hwindow, hsched]
    have hnone : d₁.db.schedule.get? u = none := by
      rw [Dict.contains_eq, Option.isSome_eq_false_iff, Option.isNone_iff_eq_none] at hscore
      exact (congrArg WatchKeys.score hbefore).trans hscore
    have hclaim₁ : d₁.db.claims.get? u = d.db.claims.get? u := congrArg WatchKeys.claim hbefore
    have hlater := (hfree.mono (toMs_mono (pass.listed_le u))).2
    rw [← hclaim₁] at hlater
    have happlies := Redis.synthesizeMarker_applies hms ((congrArg WatchKeys.watch hbefore).trans hwatch)
      hactive hlater hnone
    rcases RecoveryDb.synthesize_cases hstep with ⟨hno, -⟩ | ⟨ms, fence, hms', -, hdb⟩
    · exact absurd happlies hno
    · obtain rfl := Option.some.inj (hms.symm.trans hms')
      have hwatch₂ : (d₂.keys u).watch = some w := by
        change d₂.db.watches.get? u = some w
        rw [hdb]
        exact (congrArg WatchKeys.watch hbefore).trans hwatch
      have hclaim₂ : (d₂.keys u).claim = (d.keys u).claim := by
        change d₂.db.claims.get? u = d.db.claims.get? u
        rw [hdb]
        exact hclaim₁
      rw [hfinal hwatch₂ hclaim₂]
      refine ⟨fun _ h => absurd h (by decide), fun _ => ⟨repaired, window, due, toMs due, ?_, hwindow, hsched,
        hdeadline, ?_, le_rfl⟩⟩
      · change d₂.db.runtimes.get? u = some repaired
        rw [hdb]
        exact Dict.get?_insert_self _ _ _
      · change d₂.db.schedule.get? u = some (toMs due)
        rw [hdb]
        exact Dict.get?_insert_self _ _ _

/-- A pass recovers exactly the recoverable records. -/
theorem recovered_iff (hd : pass.run d = some d') (hu : u ∈ d.db.active) (hw : d.db.get u = some w)
    (hdecodes : d.Decodes) : pass.Recovered d d' u w ↔ pass.Recoverable d u w := by
  unfold Recovered Recoverable
  constructor
  · rintro ⟨-, -, hpolled⟩ hactive hdue hfree
    exact (polled_iff hd hu hw hactive hdue hfree).mp (hpolled hactive hdue hfree)
  · intro h
    refine ⟨terminal_leaves hd hu hw, exhausted_expires hd hu hw hdecodes, fun hactive hdue hfree => ?_⟩
    exact (polled_iff hd hu hw hactive hdue hfree).mpr (h hactive hdue hfree)

/-- A pass at instant 0. -/
def atZero : RecoveryPass where
  earliestDelaySeconds := 50
  retention := 86400 * 1000000
  retention_bound := by decide
  cleanupBatchSize := 100
  ownerId := "a"
  horizonSeconds := 60
  dispatchLease := 30 * 1000000
  recoveryGraceSeconds := 60
  dispatchBatchSize := 100
  takes _ := true
  started := 0
  listed := 0
  repaired _ := 0
  swept := 0
  claimed _ := 0
  marked _ := 0
  started_le := le_rfl
  listed_le _ := le_rfl

/-- A watch that is due at instant 0. -/
def dueWatch : Watch := Watch.sample "w" true 1000000000 5

/-- A database with an active watch and its schedule member, without its sidecar. -/
def withoutSidecar : RecoveryDb where
  db := { Redis.empty with
    watches := Dict.empty.insert "w" dueWatch
    all := ["w"]
    active := ["w"]
    schedule := Dict.empty.insert "w" 0 }
  garbled := []
  garbled_runtimes _ h := absurd h List.not_mem_nil
  active_nodup := by decide

/-- A pass leaves a watch with a member and no sidecar just as it is. -/
theorem withoutSidecar_run :
    ∃ d', atZero.run withoutSidecar = some d' ∧ d'.keys "w" = withoutSidecar.keys "w" := by
  have hrun : (atZero.run withoutSidecar).map (·.keys "w") = some (withoutSidecar.keys "w") := by
    decide +kernel
  exact Option.map_eq_some_iff.mp hrun

/-- It is not polled in time, whatever the passes after. -/
theorem withoutSidecar_not_recovered {d' : RecoveryDb} (hd : atZero.run withoutSidecar = some d') :
    ¬ atZero.Recovered withoutSidecar d' "w" dueWatch := by
  rintro ⟨-, -, hpolled⟩
  have hfree : NoLiveClaim (withoutSidecar.db.claims.get? "w") (toMs atZero.listed) := ⟨rfl, rfl⟩
  have hscheduled := (polled_iff hd (by decide) (by decide) rfl (by decide) hfree).mp
    (hpolled rfl (by decide) hfree) (by decide)
  obtain ⟨runtime, _, _, _, hruntime, -⟩ := hscheduled
  contradiction

/-- All its sidecars decode, since there are none. -/
theorem withoutSidecar_decodes : withoutSidecar.Decodes := fun u r hr => by contradiction

/-- A pass does not recover every record. -/
theorem recovery_incomplete : ¬ ∀ (pass : RecoveryPass) d d' u w, d.Decodes → pass.run d = some d' →
    u ∈ d.db.active → d.db.get u = some w → pass.Recovered d d' u w := by
  intro h
  obtain ⟨d', hd, -⟩ := withoutSidecar_run
  exact withoutSidecar_not_recovered hd (h _ _ _ _ _ withoutSidecar_decodes hd (by decide) (by decide))

/-- A watch with a member and no sidecar is not recoverable. -/
theorem recovered_iff_withoutSidecar : ¬ atZero.Recoverable withoutSidecar "w" dueWatch := by
  intro h
  obtain ⟨d', hd, -⟩ := withoutSidecar_run
  exact withoutSidecar_not_recovered hd
    ((recovered_iff hd (by decide) (by decide) withoutSidecar_decodes).mpr h)

end RecoveryPass

end Dibs
