import Dibs.Recovery.Candidates
import Dibs.Workers.Sweep

/-!
# What a ready pass says

`RecoveryCoordinator._run_pass` of `backend/services/watch_recovery.py` over the in-memory store, without
another client's step in between, and the `RecoveryOutcome` that it returns. There is one process, so it
leads, and a call of the store never raises.

The sweep counts a marker as left behind only when its publication failed. A marker beyond the batch,
and one whose lease ran out before the pass ended, leave no trace in the outcome (`ready_honest_iff`).
-/

namespace Dibs

namespace Memory

/-- `list_recovery_candidates`: the active watches. -/
def listRecoveryCandidates (m : Memory) (now : Time) : List RecoveryCandidate :=
  (m.watches.entries.filter fun e => e.2.status = .active).map fun e => {
    watchId := e.1
    watch := some e.2
    runtime := m.runtimes.get? e.1
    hasMarker := m.markers.contains e.1
    hasLiveClaim := (m.claims.get? e.1).any fun held => decide (now < held.expiresAt) }

/-- `prune_index_member`: there is no separate index, so only a whole removal does anything. -/
def pruneIndexMember (m : Memory) (watchId : String) (fromAll : Bool) : Memory :=
  if fromAll then
    { m with
      watches := m.watches.erase watchId
      runtimes := m.runtimes.erase watchId
      fence := m.fence.erase watchId
      claims := m.claims.erase watchId
      markers := m.markers.erase watchId
      terminalDeleteAt := m.terminalDeleteAt.erase watchId }
  else m

end Memory

/-- `RecoveryOutcome`. -/
structure RecoveryOutcome where
  isLeader : Bool
  considered : ℕ
  pruned : ℕ
  expired : ℕ
  synthesized : ℕ
  dispatched : ℕ
  dispatchFailed : ℕ
  failed : ℕ
  cleanupRemoved : ℕ
  backlog : Bool
deriving DecidableEq

/-- `RecoveryOutcome.ready`. -/
def RecoveryOutcome.ready (outcome : RecoveryOutcome) : Bool :=
  outcome.isLeader && outcome.failed == 0 && !outcome.backlog

/-- What `_reconcile_one` answers. -/
inductive Reconciled
  | pruned
  | expired
  | synthesized
  | deferred
  | preserved
  | noop
deriving DecidableEq

/-- A coordinator over the in-memory store with its dispatcher, and what a pass of it meets. -/
structure MemoryPass where
  earliestDelaySeconds : ℚ
  cleanupBatchSize : ℕ
  dispatcher : Dispatcher
  /-- `_run_pass` reads the clock. -/
  started : Time
  /-- `list_recovery_candidates` reads it. -/
  listed : Time
  /-- The call for a candidate reads it. -/
  repaired : String → Time
  sweep : Sweep
  /-- The cleanup of the mock state, if there is one, does not raise. -/
  mockStateCleaned : Bool

namespace MemoryPass

variable (pass : MemoryPass)

/-- `_reconcile_one`. -/
def reconcileOne (m : Memory) (candidate : RecoveryCandidate) : Reconciled × Memory :=
  let u := candidate.watchId
  match reconcileAction pass.earliestDelaySeconds candidate pass.started with
  | some (.prune fromAll) => (.pruned, m.pruneIndexMember u fromAll)
  | some .expire =>
    let out := m.expireIfEligible (pass.repaired u) u none false
    (if out.1 matches .applied _ _ _ then .expired else .noop, out.2)
  | some (.synthesize runtime) =>
    let out := m.synthesizeMarker (pass.repaired u) u runtime
    (if out.1 then .synthesized else .noop, out.2)
  | some .deferred => (.deferred, m)
  | some .preserved => (.preserved, m)
  | none => (.noop, m)

/-- The loop over the candidates. -/
def reconcileAll : List RecoveryCandidate → Memory → List Reconciled × Memory
  | [], m => ([], m)
  | candidate :: rest, m =>
    let one := pass.reconcileOne m candidate
    let all := reconcileAll rest one.2
    (one.1 :: all.1, all.2)

/-- What the repairs leave: the store that the dispatcher reads. -/
def reconciled (m : Memory) : List Reconciled × Memory :=
  pass.reconcileAll (m.listRecoveryCandidates pass.listed) m

/-- `_dispatch_due`. -/
def swept (m : Memory) : SweepLog × Memory := pass.dispatcher.dispatchDue pass.sweep (pass.reconciled m).2

/-- `_run_cleanup`. -/
def cleaned (m : Memory) : CleanupResult × Memory :=
  (pass.swept m).2.cleanupDue pass.started pass.cleanupBatchSize

/-- `_run_pass`. -/
def run (m : Memory) : RecoveryOutcome × Memory :=
  let reconciled := (pass.reconciled m).1
  let sweep := (pass.swept m).1.result
  let cleanup := (pass.cleaned m).1
  ({ isLeader := true
     considered := reconciled.length
     pruned := reconciled.count .pruned
     expired := reconciled.count .expired
     synthesized := reconciled.count .synthesized
     dispatched := sweep.dispatched
     dispatchFailed := sweep.failed
     failed := 0
     cleanupRemoved := cleanup.removed
     backlog := sweep.hasBacklog || cleanup.remaining || !pass.mockStateCleaned },
    (pass.cleaned m).2)

/-- At the end of the pass every active watch whose marker lay within the horizon when the sweep read the
schedule was published in the pass, or an unexpired lease covers its window. -/
def Honest (m : Memory) (ended : Time) : Prop :=
  ∀ marker ∈ (pass.reconciled m).2.dueMarkers pass.sweep.now pass.dispatcher.horizon,
    (pass.reconciled m).2.Current marker →
      (pass.swept m).1.Published marker ∨ (pass.run m).2.Covered marker ended

/-- The sweep does not reach a marker of the horizon, or it finds a lease on it. -/
def Missed (m : Memory) (marker : ScheduleMarker) : Prop :=
  marker ∈ ((pass.reconciled m).2.dueMarkers pass.sweep.now pass.dispatcher.horizon).drop
      pass.dispatcher.batchSize ∨
    (pass.reconciled m).2.Covered marker (pass.sweep.claimed marker.watchId)

/-! ## What the repairs and the cleanup leave alone -/

/-- A row that is replaced by one whose marker is under its id, or none, leaves the table keyed. -/
theorem markersKeyed_of_update {m m' : Memory} {u : String} {r : Row} (h : m.MarkersKeyed)
    (hrow : m'.row = Function.update m.row u r) (hr : ∀ marker ∈ r.marker, marker.watchId = u) :
    m'.MarkersKeyed := by
  intro v marker hmarker
  have hget : (m'.row v).marker = some marker := hmarker
  rw [hrow, Function.update_apply] at hget
  split_ifs at hget with hv
  · exact hv ▸ hr marker hget
  · exact h v marker hget

/-- A repair keeps every marker under the id of its watch. -/
theorem reconcileOne_markersKeyed {m : Memory} (h : m.MarkersKeyed) (candidate : RecoveryCandidate) :
    (pass.reconcileOne m candidate).2.MarkersKeyed := by
  unfold reconcileOne
  dsimp only
  split
  next fromAll _ =>
    unfold Memory.pruneIndexMember
    split_ifs
    · intro v marker hmarker
      rw [Dict.get?_erase] at hmarker
      split_ifs at hmarker
      exact h v marker hmarker
    · exact h
  next =>
    rcases m.expireIfEligible_cases (pass.repaired candidate.watchId) candidate.watchId none false with
      ⟨watch, -, -, -, -, hrow⟩ | ⟨-, hsame⟩
    · exact markersKeyed_of_update h hrow (by simp [Row.finish])
    · rw [hsame]
      exact h
  next runtime _ =>
    rcases m.synthesizeMarker_cases (pass.repaired candidate.watchId) candidate.watchId runtime with
      ⟨watch, -, -, -, -, -, hrow⟩ | ⟨-, hsame⟩
    · refine markersKeyed_of_update h hrow fun marker hmarker => ?_
      have hmarkerOf : markerOf candidate.watchId runtime = some marker := hmarker
      unfold markerOf at hmarkerOf
      split at hmarkerOf
      next => rw [← Option.some.inj hmarkerOf]
      next => contradiction
    · rw [hsame]
      exact h
  all_goals exact h

/-- So do all repairs of a pass. -/
theorem reconciled_markersKeyed {m : Memory} (h : m.MarkersKeyed) :
    (pass.reconciled m).2.MarkersKeyed := by
  have hall : ∀ (candidates : List RecoveryCandidate) (m : Memory), m.MarkersKeyed →
      (pass.reconcileAll candidates m).2.MarkersKeyed := by
    intro candidates
    induction candidates with
    | nil => exact fun m h => h
    | cons candidate rest ih => exact fun m h => ih _ (pass.reconcileOne_markersKeyed h candidate)
  exact hall _ m h

/-- The cleanup leaves the lease of an active watch alone. -/
theorem covered_cleaned {m : Memory} {marker : ScheduleMarker}
    (hcurrent : (pass.reconciled m).2.Current marker) (now : Time) :
    (pass.run m).2.Covered marker now ↔ (pass.swept m).2.Covered marker now := by
  have hactive : (pass.swept m).2.Current marker :=
    (Dispatcher.current_dispatchDue pass.dispatcher pass.sweep _ marker).mpr hcurrent
  obtain ⟨-, w, hw, hactive⟩ := hactive
  have hwatch : ((pass.swept m).2.row marker.watchId).watch = some w := hw
  have hlease : ((pass.run m).2.row marker.watchId).dispatchLease =
      ((pass.swept m).2.row marker.watchId).dispatchLease := by
    rcases (pass.swept m).2.cleanupDue_step pass.started pass.cleanupBatchSize marker.watchId with
      hsame | ⟨⟨w', hw', hne⟩, -⟩ | ⟨-, hdropped⟩
    · exact congrArg Row.dispatchLease hsame
    · obtain rfl := Option.some.inj (hwatch.symm.trans hw')
      exact absurd hactive hne
    · exact (congrArg Row.dispatchLease hdropped).trans rfl
  have hget : (pass.run m).2.dispatchLeases.get? marker.watchId =
      (pass.swept m).2.dispatchLeases.get? marker.watchId := hlease
  unfold Memory.Covered
  rw [hget]

/-! ## The outcome -/

/-- In a ready pass no publication failed. -/
theorem not_failed_of_ready {m : Memory} (hready : (pass.run m).1.ready = true)
    (marker : ScheduleMarker) : (marker, .failed) ∉ (pass.swept m).1 := by
  intro hmem
  have hbacklog : (pass.swept m).1.result.hasBacklog = false := by
    simp only [RecoveryOutcome.ready, run, Bool.and_eq_true, Bool.not_eq_true', Bool.or_eq_false_iff]
      at hready
    exact hready.2.1.1
  have hcount : 0 < (pass.swept m).1.countP fun e => e.2.isFailed :=
    List.countP_pos_iff.mpr ⟨_, hmem, rfl⟩
  rw [DispatchSweepResult.hasBacklog, decide_eq_false_iff_not] at hbacklog
  exact hbacklog hcount

/-- One marker of a ready pass: it was published, unless the sweep missed it; then its lease is what it
was. -/
theorem swept_of_ready {m : Memory} (hkeyed : m.MarkersKeyed) (hready : (pass.run m).1.ready = true)
    {marker : ScheduleMarker}
    (hdue : marker ∈ (pass.reconciled m).2.dueMarkers pass.sweep.now pass.dispatcher.horizon)
    (hcurrent : (pass.reconciled m).2.Current marker) :
    (¬ pass.Missed m marker ∧ (pass.swept m).1.Published marker) ∨
      (pass.Missed m marker ∧ ¬ (pass.swept m).1.Published marker ∧
        (pass.swept m).2.dispatchLeases.get? marker.watchId =
          (pass.reconciled m).2.dispatchLeases.get? marker.watchId) := by
  have hnodup := Memory.nodup_dueMarkers (pass.reconciled_markersKeyed hkeyed) pass.sweep.now
    pass.dispatcher.horizon
  have hlog : (pass.swept m).1.map Prod.fst =
      ((pass.reconciled m).2.dueMarkers pass.sweep.now pass.dispatcher.horizon).take
        pass.dispatcher.batchSize := Dispatcher.dispatchAll_log _ _ _ _
  unfold Missed
  generalize hlist : (pass.reconciled m).2.dueMarkers pass.sweep.now pass.dispatcher.horizon = due
    at hdue hnodup hlog
  have hswept : pass.swept m = pass.dispatcher.dispatchAll pass.sweep
      (due.take pass.dispatcher.batchSize) (pass.reconciled m).2 := by
    rw [← hlist]
    rfl
  have hbatch : ((due.take pass.dispatcher.batchSize).map ScheduleMarker.watchId).Nodup :=
    hnodup.sublist ((List.take_sublist _ _).map _)
  rw [← List.take_append_drop pass.dispatcher.batchSize due] at hdue hnodup
  rw [List.map_append] at hnodup
  have hapart := (List.nodup_append.mp hnodup).2.2
  rcases List.mem_append.mp hdue with htake | hdrop
  · have hreached : marker ∉ due.drop pass.dispatcher.batchSize := fun hdrop =>
      hapart _ (List.mem_map_of_mem htake) _ (List.mem_map_of_mem hdrop) rfl
    rcases Dispatcher.dispatchAll_outcome pass.dispatcher pass.sweep hbatch htake hcurrent with
      ⟨hcovered, hdeferred, hkept⟩ | ⟨hfree, -, hpublished⟩ | ⟨-, -, hfailed⟩
    · refine .inr ⟨.inr hcovered, ?_, hswept ▸ hkept⟩
      rintro ⟨poll, hpublished, -⟩
      -- The log has one entry for each marker of the batch.
      have hunique : ((pass.swept m).1.map Prod.fst).Nodup := hlog ▸ hbatch.of_map _
      have hdeferred : (marker, .deferred) ∈ (pass.swept m).1 := by
        rw [hswept]
        exact hdeferred
      have hsame := List.inj_on_of_nodup_map hunique hpublished hdeferred rfl
      simp at hsame
    · exact .inl ⟨fun h => h.elim hreached hfree, hswept ▸ hpublished⟩
    · exact absurd (hswept ▸ hfailed) (pass.not_failed_of_ready hready marker)
  · refine .inr ⟨.inl hdrop, ?_, ?_⟩
    · rintro ⟨poll, hpublished, -⟩
      have hmem := List.mem_map_of_mem (f := Prod.fst) hpublished
      rw [hlog] at hmem
      exact hapart _ (List.mem_map_of_mem hmem) _ (List.mem_map_of_mem hdrop) rfl
    · rw [hswept]
      refine (Dispatcher.dispatchAll_frame _ _ _ _).2.2 _ fun hid => ?_
      exact hapart _ hid _ (List.mem_map_of_mem hdrop) rfl

/-- A ready pass is honest exactly when every marker that its sweep missed has a lease on its window that
is unexpired when the pass ends. -/
theorem ready_honest_iff {m : Memory} (hkeyed : m.MarkersKeyed) (ended : Time)
    (hready : (pass.run m).1.ready = true) :
    pass.Honest m ended ↔
      ∀ marker ∈ (pass.reconciled m).2.dueMarkers pass.sweep.now pass.dispatcher.horizon,
        (pass.reconciled m).2.Current marker → pass.Missed m marker →
          (pass.reconciled m).2.Covered marker ended := by
  have hcovered : ∀ {marker}, (pass.reconciled m).2.Current marker →
      (pass.swept m).2.dispatchLeases.get? marker.watchId =
        (pass.reconciled m).2.dispatchLeases.get? marker.watchId →
      ((pass.run m).2.Covered marker ended ↔ (pass.reconciled m).2.Covered marker ended) := by
    intro marker hcurrent hkept
    rw [pass.covered_cleaned hcurrent]
    unfold Memory.Covered
    rw [hkept]
  constructor
  · intro hhonest marker hdue hcurrent hmissed
    rcases pass.swept_of_ready hkeyed hready hdue hcurrent with ⟨hreached, -⟩ | ⟨-, hsilent, hkept⟩
    · exact absurd hmissed hreached
    · rcases hhonest marker hdue hcurrent with hpublished | hended
      · exact absurd hpublished hsilent
      · exact (hcovered hcurrent hkept).mp hended
  · intro hall marker hdue hcurrent
    rcases pass.swept_of_ready hkeyed hready hdue hcurrent with ⟨-, hpublished⟩ | ⟨hmissed, -, hkept⟩
    · exact .inl hpublished
    · exact .inr ((hcovered hcurrent hkept).mpr (hall marker hdue hcurrent hmissed))

end MemoryPass

/-- A pass at the start of time with a working queue and batches of a given size. -/
def MemoryPass.sample (batchSize : ℕ) : MemoryPass where
  earliestDelaySeconds := 50
  cleanupBatchSize := 256
  dispatcher := .sample batchSize
  started := 0
  listed := 0
  repaired _ := 0
  sweep := .working 0
  mockStateCleaned := true

/-- The three watches need no repair. -/
theorem MemoryPass.sample_reconciled (batchSize : ℕ) :
    ((MemoryPass.sample batchSize).reconciled threeDue).2 = threeDue := by
  show (MemoryPass.reconcileAll (.sample 1) (threeDue.listRecoveryCandidates 0) threeDue).2 = threeDue
  decide +kernel

/-- The sweep of a sample pass. -/
theorem MemoryPass.sample_swept (batchSize : ℕ) :
    (MemoryPass.sample batchSize).swept threeDue = (Dispatcher.sample batchSize).dispatchAll (.working 0)
      ([⟨"a", "a:0", 0⟩, ⟨"b", "b:0", 0⟩, ⟨"c", "c:0", 0⟩].take batchSize) threeDue := by
  rw [swept, sample_reconciled, ← threeDue_due (le_refl 0)]
  rfl

/-- The markers that the sweep of a sample pass reads. -/
theorem MemoryPass.sample_due (batchSize : ℕ) :
    ((MemoryPass.sample batchSize).reconciled threeDue).2.dueMarkers
        (MemoryPass.sample batchSize).sweep.now (MemoryPass.sample batchSize).dispatcher.horizon =
      [⟨"a", "a:0", 0⟩, ⟨"b", "b:0", 0⟩, ⟨"c", "c:0", 0⟩] := by
  rw [sample_reconciled, ← threeDue_due (le_refl 0)]
  rfl

/-- No lease covers any of the three markers. -/
theorem threeDue_not_covered (marker : ScheduleMarker) (now : Time) : ¬ threeDue.Covered marker now := by
  rintro ⟨held, hheld, -⟩
  have hempty : threeDue.dispatchLeases = .empty := by decide +kernel
  rw [hempty] at hheld
  contradiction

/-- A batch that holds all three markers makes a ready pass honest. -/
theorem MemoryPass.ready_honest_iff_whole : (MemoryPass.sample 3).Honest threeDue 0 := by
  have hready : ((MemoryPass.sample 3).run threeDue).1.ready = true := by
    simp only [run, cleaned, sample_swept]
    decide +kernel
  refine ((MemoryPass.sample 3).ready_honest_iff threeDue_populated.keyed 0 hready).mpr ?_
  intro marker _ _ hmissed
  rw [Missed, sample_due, sample_reconciled] at hmissed
  rcases hmissed with hdrop | hcovered
  · contradiction
  · exact absurd hcovered (threeDue_not_covered marker _)

/-- With batches of two the pass is ready, but the third marker was neither published nor is it leased. -/
theorem ready_pass_dishonest :
    threeDue.Populated ∧ ((MemoryPass.sample 2).run threeDue).1.ready = true ∧
      ¬ (MemoryPass.sample 2).Honest threeDue 0 := by
  have hready : ((MemoryPass.sample 2).run threeDue).1.ready = true := by
    simp only [MemoryPass.run, MemoryPass.cleaned, MemoryPass.sample_swept]
    decide +kernel
  refine ⟨threeDue_populated, hready, fun hhonest => ?_⟩
  let c : ScheduleMarker := ⟨"c", "c:0", 0⟩
  have hdue : c ∈ ((MemoryPass.sample 2).reconciled threeDue).2.dueMarkers
      (MemoryPass.sample 2).sweep.now (MemoryPass.sample 2).dispatcher.horizon := by
    rw [MemoryPass.sample_due]
    simp [c]
  have hcurrent : ((MemoryPass.sample 2).reconciled threeDue).2.Current c := by
    rw [MemoryPass.sample_reconciled]
    exact threeDue_populated.current "c" c (by decide +kernel)
  have hdrop : (MemoryPass.sample 2).Missed threeDue c := by
    rw [MemoryPass.Missed, MemoryPass.sample_due]
    exact .inl (by decide)
  rcases (MemoryPass.sample 2).swept_of_ready threeDue_populated.keyed hready hdue hcurrent with
    ⟨hreached, -⟩ | ⟨-, hsilent, hkept⟩
  · exact hreached hdrop
  · rcases hhonest c hdue hcurrent with hpublished | hcovered
    · exact hsilent hpublished
    · rw [(MemoryPass.sample 2).covered_cleaned hcurrent] at hcovered
      rw [MemoryPass.sample_reconciled] at hkept
      refine threeDue_not_covered c 0 ?_
      unfold Memory.Covered at hcovered ⊢
      rwa [hkept] at hcovered

end Dibs
