import Mathlib.Data.List.Infix
import Dibs.Lib.StableSort
import Dibs.Workers.Dispatcher

/-!
# Whole dispatch sweeps

`dispatch_due` of `backend/workers/dispatcher.py` from its start to its end, without another client's
step in between: a function of the store and of what the sweep meets, the instants that the clocks read
and the answers of the queue.

`dispatchAll_outcome` says what becomes of each marker of the batch. But the batch is cut from the
markers in order of their due times before any lease is looked at, and a published marker keeps its
place: the markers beyond the first batch are never reached, however many sweeps follow
(`dispatch_progress_iff`).
-/

namespace Dibs

/-- `_Outcome`, with what was handed to the queue. -/
inductive DispatchOutcome
  | dispatched (poll : QueuedPoll)
  | deferred
  | failed
deriving DecidableEq

/-- What an outcome handed to the queue. -/
def DispatchOutcome.poll : DispatchOutcome → Option QueuedPoll
  | .dispatched poll => some poll
  | .deferred | .failed => none

/-- The publication was refused. -/
def DispatchOutcome.isFailed : DispatchOutcome → Bool
  | .failed => true
  | .dispatched _ | .deferred => false

/-- The marker was left to somebody else. -/
def DispatchOutcome.isDeferred : DispatchOutcome → Bool
  | .deferred => true
  | .dispatched _ | .failed => false

/-- `DispatchSweepResult`. -/
structure DispatchSweepResult where
  considered : ℕ
  dispatched : ℕ
  deferred : ℕ
  failed : ℕ
deriving DecidableEq

/-- `DispatchSweepResult.has_backlog`. -/
def DispatchSweepResult.hasBacklog (result : DispatchSweepResult) : Bool := decide (0 < result.failed)

/-- What a sweep meets. -/
structure Sweep where
  /-- `dispatch_due` reads the clock. -/
  now : Time
  /-- `claim_dispatch` reads it for the marker of a watch. -/
  claimed : String → Time
  /-- Whether the queue takes the publication for a watch. -/
  takes : String → Bool

/-- The markers of a sweep with what became of them, in order. -/
abbrev SweepLog := List (ScheduleMarker × DispatchOutcome)

namespace Dispatcher

variable (d : Dispatcher) (sweep : Sweep)

/-- `_dispatch_one`. -/
def dispatchOne (m : Memory) (marker : ScheduleMarker) : DispatchOutcome × Memory :=
  match m.claimDispatch (sweep.claimed marker.watchId) marker d.ownerId d.lease with
  | (.claimed claim, m) =>
    if sweep.takes marker.watchId then
      (.dispatched (queuedPoll marker claim sweep.now),
        (m.markDispatched claim (d.redispatchAfter marker sweep.now)).2)
    else (.failed, (m.releaseDispatch claim).2)
  | (.busy, m) | (.stale, m) => (.deferred, m)

/-- The loop of `dispatch_due`. -/
def dispatchAll : List ScheduleMarker → Memory → SweepLog × Memory
  | [], m => ([], m)
  | marker :: rest, m =>
    let one := d.dispatchOne sweep m marker
    let all := dispatchAll rest one.2
    ((marker, one.1) :: all.1, all.2)

/-- What `dispatch_due` does. -/
def dispatchDue (m : Memory) : SweepLog × Memory :=
  d.dispatchAll sweep (m.dueScheduleMarkers sweep.now d.horizon d.batchSize) m

end Dispatcher

/-- What `dispatch_due` counts. -/
def SweepLog.result (log : SweepLog) : DispatchSweepResult where
  considered := log.length
  dispatched := log.countP fun e => e.2.poll.isSome
  deferred := log.countP fun e => e.2.isDeferred
  failed := log.countP fun e => e.2.isFailed

/-- A marker was published: its window was handed to the queue. -/
def SweepLog.Published (log : SweepLog) (marker : ScheduleMarker) : Prop :=
  ∃ poll, (marker, .dispatched poll) ∈ log ∧ poll.watchId = marker.watchId ∧
    poll.windowId = marker.windowId

instance (log : SweepLog) (marker : ScheduleMarker) : Decidable (log.Published marker) :=
  decidable_of_iff
    (∃ e ∈ log, e.1 = marker ∧ ∃ poll ∈ e.2.poll, poll.watchId = marker.watchId ∧
      poll.windowId = marker.windowId) <| by
    constructor
    · rintro ⟨⟨_, outcome⟩, hmem, rfl, poll, hpoll, h⟩
      cases outcome with
      | dispatched poll' =>
        obtain rfl := Option.some.inj hpoll
        exact ⟨_, hmem, h⟩
      | deferred => contradiction
      | failed => contradiction
    · rintro ⟨poll, hmem, h⟩
      exact ⟨_, hmem, rfl, poll, rfl, h⟩

namespace Memory

/-- An unexpired dispatch lease covers the window of a marker. -/
def Covered (m : Memory) (marker : ScheduleMarker) (now : Time) : Prop :=
  ∃ held, m.dispatchLeases.get? marker.watchId = some held ∧ held.windowId = marker.windowId ∧
    now < held.expiresAt

/-- A marker is the current one of an active watch. -/
def Current (m : Memory) (marker : ScheduleMarker) : Prop :=
  m.markers.get? marker.watchId = some marker ∧
    ∃ w, m.watches.get? marker.watchId = some w ∧ w.status = .active

/-- Every marker stands under the id of its watch. -/
def MarkersKeyed (m : Memory) : Prop := ∀ u marker, m.markers.get? u = some marker → marker.watchId = u

/-- The markers that have entered the horizon, earliest first. -/
def dueMarkers (m : Memory) (now : Time) (horizon : Duration) : List ScheduleMarker :=
  ((m.markers.entries.map Prod.snd).filter fun k => decide (k.scheduledFor ≤ now + horizon)).mergeSort
    fun a b => decide (a.scheduledFor ≤ b.scheduledFor)

theorem dueScheduleMarkers_eq (m : Memory) (now : Time) (horizon : Duration) (limit : ℕ) :
    m.dueScheduleMarkers now horizon limit = (m.dueMarkers now horizon).take limit := rfl

/-- Earlier leases cover for less long. -/
theorem Covered.mono {m : Memory} {marker : ScheduleMarker} {now now' : Time}
    (h : m.Covered marker now') (hle : now ≤ now') : m.Covered marker now := by
  obtain ⟨held, hheld, hwindow, hlt⟩ := h
  exact ⟨held, hheld, hwindow, lt_of_le_of_lt hle hlt⟩

/-- The markers of the table, under their ids. -/
theorem mem_markers_iff {m : Memory} (hkeyed : m.MarkersKeyed) {marker : ScheduleMarker} :
    marker ∈ m.markers.entries.map Prod.snd ↔ m.markers.get? marker.watchId = some marker := by
  constructor
  · intro hmem
    obtain ⟨e, he, rfl⟩ := List.mem_map.mp hmem
    have hget : m.markers.get? e.1 = some e.2 := (m.markers.get?_eq_some_iff).mpr he
    rw [hkeyed e.1 e.2 hget]
    exact hget
  · intro hget
    exact List.mem_map.mpr ⟨_, (m.markers.get?_eq_some_iff).mp hget, rfl⟩

/-- No two markers of the table are of one watch. -/
theorem nodup_markers {m : Memory} (hkeyed : m.MarkersKeyed) :
    ((m.markers.entries.map Prod.snd).map ScheduleMarker.watchId).Nodup := by
  have hkeys : (m.markers.entries.map Prod.snd).map ScheduleMarker.watchId =
      m.markers.entries.map Prod.fst := by
    rw [List.map_map]
    refine List.map_congr_left fun e he => ?_
    exact hkeyed e.1 e.2 ((m.markers.get?_eq_some_iff).mpr he)
  rw [hkeys]
  exact m.markers.nodup

/-- The markers in the horizon are those of the table that are due by its end. -/
theorem mem_dueMarkers_iff {m : Memory} (hkeyed : m.MarkersKeyed) {now : Time} {horizon : Duration}
    {marker : ScheduleMarker} :
    marker ∈ m.dueMarkers now horizon ↔
      m.markers.get? marker.watchId = some marker ∧ marker.scheduledFor ≤ now + horizon := by
  rw [dueMarkers, List.mem_mergeSort, List.mem_filter, mem_markers_iff hkeyed, decide_eq_true_iff]

/-- No two markers in the horizon are of one watch. -/
theorem nodup_dueMarkers {m : Memory} (hkeyed : m.MarkersKeyed) (now : Time) (horizon : Duration) :
    ((m.dueMarkers now horizon).map ScheduleMarker.watchId).Nodup := by
  have hperm : (m.dueMarkers now horizon).Perm _ := List.mergeSort_perm _ _
  refine ((hperm.map _).nodup_iff).mpr ?_
  exact (nodup_markers hkeyed).sublist (List.filter_sublist.map _)

/-- As the clock moves, markers enter the horizon behind those that are in it. -/
theorem dueMarkers_prefix (m : Memory) {now now' : Time} (hlater : now ≤ now') (horizon : Duration) :
    m.dueMarkers now horizon <+: m.dueMarkers now' horizon := by
  apply StableSort.mergeSort_filter_prefix
  · intro a b c hab hbc
    simp only [decide_eq_true_eq] at *
    exact le_trans hab hbc
  · intro a b
    simpa using le_total a.scheduledFor b.scheduledFor
  · intro a b hab hb
    simp only [decide_eq_true_eq] at *
    exact le_trans hab hb
  · intro a ha
    simp only [decide_eq_true_eq] at *
    exact le_trans ha (add_le_add_left hlater _)

end Memory

/-- What no call about dispatches changes: the documents, the markers, and the leases of other watches. -/
structure Memory.SameButLease (m m' : Memory) (u : String) : Prop where
  watches : m'.watches = m.watches
  markers : m'.markers = m.markers
  leases : ∀ v, v ≠ u → m'.dispatchLeases.get? v = m.dispatchLeases.get? v

namespace Memory

theorem SameButLease.refl (m : Memory) (u : String) : m.SameButLease m u := ⟨rfl, rfl, fun _ _ => rfl⟩

theorem SameButLease.trans {m m' m'' : Memory} {u : String} (h : m.SameButLease m' u)
    (h' : m'.SameButLease m'' u) : m.SameButLease m'' u where
  watches := h'.watches.trans h.watches
  markers := h'.markers.trans h.markers
  leases v hv := (h'.leases v hv).trans (h.leases v hv)

theorem claimDispatch_sameButLease (m : Memory) (now : Time) (marker : ScheduleMarker) (o : String)
    (lease : Duration) : m.SameButLease (m.claimDispatch now marker o lease).2 marker.watchId := by
  unfold claimDispatch
  split
  · split_ifs
    · exact .refl m _
    · exact .refl m _
    · exact ⟨rfl, rfl, fun v hv => Dict.get?_insert_ne _ _ (Ne.symm hv)⟩
  · exact .refl m _

theorem markDispatched_sameButLease (m : Memory) (c : DispatchClaim) (after : Time) :
    m.SameButLease (m.markDispatched c after).2 c.watchId := by
  unfold markDispatched
  split
  · exact ⟨rfl, rfl, fun v hv => Dict.get?_insert_ne _ _ (Ne.symm hv)⟩
  · exact .refl m _

theorem releaseDispatch_sameButLease (m : Memory) (c : DispatchClaim) :
    m.SameButLease (m.releaseDispatch c).2 c.watchId := by
  unfold releaseDispatch
  split_ifs
  · exact ⟨rfl, rfl, fun v hv => Dict.get?_erase_ne _ (Ne.symm hv)⟩
  · exact .refl m _

/-- The current marker of an active watch is claimed unless a lease covers it. -/
theorem claimDispatch_current {m : Memory} {marker : ScheduleMarker} (h : m.Current marker) (now : Time)
    (o : String) (lease : Duration) :
    (m.Covered marker now ∧ m.claimDispatch now marker o lease = (.busy, m)) ∨
      (¬ m.Covered marker now ∧ ∃ claim, (m.claimDispatch now marker o lease).1 = .claimed claim ∧
        claim.watchId = marker.watchId) := by
  obtain ⟨hmarker, w, hw, hactive⟩ := h
  simp only [claimDispatch, hmarker, hw]
  rw [if_neg (by simp [hactive])]
  split_ifs with hbusy
  · refine .inl ⟨?_, rfl⟩
    cases hheld : m.dispatchLeases.get? marker.watchId with
    | none => simp [hheld] at hbusy
    | some held =>
      have hlive : held.windowId = marker.windowId ∧ now < held.expiresAt := by simpa [hheld] using hbusy
      exact ⟨held, hheld, hlive.1, hlive.2⟩
  · refine .inr ⟨?_, _, rfl, rfl⟩
    rintro ⟨held, hheld, hwindow, hlt⟩
    simp [hheld, hwindow, hlt] at hbusy

end Memory

namespace Dispatcher

variable {m : Memory} {marker : ScheduleMarker}

/-- A dispatch changes leases only, and of one watch only. -/
theorem dispatchOne_sameButLease (d : Dispatcher) (sweep : Sweep) (m : Memory)
    (marker : ScheduleMarker) : m.SameButLease (d.dispatchOne sweep m marker).2 marker.watchId := by
  have hclaim := m.claimDispatch_sameButLease (sweep.claimed marker.watchId) marker d.ownerId d.lease
  have hwatch := (m.claimDispatch_cases (sweep.claimed marker.watchId) marker d.ownerId d.lease)
  unfold dispatchOne
  generalize m.claimDispatch (sweep.claimed marker.watchId) marker d.ownerId d.lease = out at hclaim hwatch
  obtain ⟨result, m'⟩ := out
  cases result with
  | claimed claim =>
    have hid : claim.watchId = marker.watchId := by
      rcases hwatch with ⟨_, _, -, -, -, -, -, hout, -⟩ | ⟨hno, -⟩
      · simpa using congrArg DispatchClaim.watchId (DispatchResult.claimed.inj hout)
      · exact absurd rfl (hno claim)
    dsimp only
    split_ifs
    · exact hclaim.trans (hid ▸ m'.markDispatched_sameButLease claim _)
    · exact hclaim.trans (hid ▸ m'.releaseDispatch_sameButLease claim)
  | busy => exact hclaim
  | stale => exact hclaim

/-- What becomes of the current marker of an active watch: it is deferred while a lease covers it, and
otherwise published if the queue takes it. -/
theorem dispatchOne_current (d : Dispatcher) (sweep : Sweep) (h : m.Current marker) :
    (m.Covered marker (sweep.claimed marker.watchId) ∧
        d.dispatchOne sweep m marker = (.deferred, m)) ∨
      (¬ m.Covered marker (sweep.claimed marker.watchId) ∧ sweep.takes marker.watchId = true ∧
        ∃ poll, (d.dispatchOne sweep m marker).1 = .dispatched poll ∧
          poll.watchId = marker.watchId ∧ poll.windowId = marker.windowId) ∨
      (¬ m.Covered marker (sweep.claimed marker.watchId) ∧ sweep.takes marker.watchId = false ∧
        (d.dispatchOne sweep m marker).1 = .failed) := by
  unfold dispatchOne
  rcases Memory.claimDispatch_current h (sweep.claimed marker.watchId) d.ownerId d.lease with
    ⟨hcovered, hbusy⟩ | ⟨hfree, claim, hclaimed, -⟩
  · rw [hbusy]
    exact .inl ⟨hcovered, rfl⟩
  · generalize m.claimDispatch (sweep.claimed marker.watchId) marker d.ownerId d.lease = out at hclaimed
    obtain ⟨result, m'⟩ := out
    obtain rfl : result = .claimed claim := hclaimed
    dsimp only
    split_ifs with htakes
    · exact .inr (.inl ⟨hfree, htakes, _, rfl, rfl, rfl⟩)
    · exact .inr (.inr ⟨hfree, by simpa using htakes, rfl⟩)

/-- A sweep changes leases only, and of the watches of its markers only. -/
theorem dispatchAll_frame (d : Dispatcher) (sweep : Sweep) (markers : List ScheduleMarker)
    (m : Memory) :
    (d.dispatchAll sweep markers m).2.watches = m.watches ∧
      (d.dispatchAll sweep markers m).2.markers = m.markers ∧
      ∀ v, v ∉ markers.map ScheduleMarker.watchId →
        (d.dispatchAll sweep markers m).2.dispatchLeases.get? v = m.dispatchLeases.get? v := by
  induction markers generalizing m with
  | nil => exact ⟨rfl, rfl, fun _ _ => rfl⟩
  | cons marker rest ih =>
    have hone := dispatchOne_sameButLease d sweep m marker
    obtain ⟨hwatches, hmarkers, hleases⟩ := ih (d.dispatchOne sweep m marker).2
    refine ⟨hwatches.trans hone.watches, hmarkers.trans hone.markers, fun v hv => ?_⟩
    rw [List.map_cons, List.mem_cons, not_or] at hv
    exact (hleases v hv.2).trans (hone.leases v hv.1)

/-- The log of a sweep is about its markers, in order. -/
theorem dispatchAll_log (d : Dispatcher) (sweep : Sweep) (markers : List ScheduleMarker)
    (m : Memory) :
    (d.dispatchAll sweep markers m).1.map Prod.fst = markers := by
  induction markers generalizing m with
  | nil => rfl
  | cons marker rest ih =>
    show marker :: (d.dispatchAll sweep rest _).1.map Prod.fst = _
    rw [ih]

/-- What becomes of each marker of a batch that is the current one of an active watch: it is deferred
while a lease covers it, which then stays as it is, and otherwise published if the queue takes it. -/
theorem dispatchAll_outcome (d : Dispatcher) (sweep : Sweep) {markers : List ScheduleMarker}
    {m : Memory}
    (hnodup : (markers.map ScheduleMarker.watchId).Nodup) {marker : ScheduleMarker}
    (hmem : marker ∈ markers) (hcurrent : m.Current marker) :
    (m.Covered marker (sweep.claimed marker.watchId) ∧
        (marker, .deferred) ∈ (d.dispatchAll sweep markers m).1 ∧
        (d.dispatchAll sweep markers m).2.dispatchLeases.get? marker.watchId =
          m.dispatchLeases.get? marker.watchId) ∨
      (¬ m.Covered marker (sweep.claimed marker.watchId) ∧ sweep.takes marker.watchId = true ∧
        (d.dispatchAll sweep markers m).1.Published marker) ∨
      (¬ m.Covered marker (sweep.claimed marker.watchId) ∧ sweep.takes marker.watchId = false ∧
        (marker, .failed) ∈ (d.dispatchAll sweep markers m).1) := by
  induction markers generalizing m with
  | nil => contradiction
  | cons first rest ih =>
    obtain ⟨hfirst, hrest⟩ := List.nodup_cons.mp hnodup
    have hone := dispatchOne_sameButLease d sweep m first
    rcases List.mem_cons.mp hmem with rfl | hmem
    · -- The rest of the batch is about other watches.
      have hkept := (dispatchAll_frame d sweep rest
        (d.dispatchOne sweep m marker).2).2.2 _ hfirst
      rcases dispatchOne_current d sweep hcurrent with ⟨hcovered, hout⟩ |
        ⟨hfree, htakes, poll, hout, hwatch, hwindow⟩ | ⟨hfree, htakes, hout⟩
      · refine .inl ⟨hcovered, ?_, ?_⟩
        · exact List.mem_cons.mpr (.inl (by rw [hout]))
        · rw [hout] at hkept
          show (d.dispatchAll sweep rest (d.dispatchOne sweep m marker).2).2.dispatchLeases.get? _ = _
          rw [hout]
          exact hkept
      · exact .inr (.inl ⟨hfree, htakes, poll, List.mem_cons.mpr (.inl (by rw [hout])), hwatch, hwindow⟩)
      · exact .inr (.inr ⟨hfree, htakes, List.mem_cons.mpr (.inl (by rw [hout]))⟩)
    · -- What happens to the first marker is about another watch.
      have hne : marker.watchId ≠ first.watchId := by
        intro heq
        exact hfirst (heq ▸ List.mem_map_of_mem hmem)
      have hcurrent' : (d.dispatchOne sweep m first).2.Current marker := by
        unfold Memory.Current
        rw [hone.markers, hone.watches]
        exact hcurrent
      have hcovered : ∀ now, (d.dispatchOne sweep m first).2.Covered marker now ↔
          m.Covered marker now := by
        intro now
        unfold Memory.Covered
        rw [hone.leases _ hne]
      have hleases := hone.leases _ hne
      rcases ih hrest hmem hcurrent' with ⟨hcov, hlog, hkept⟩ | ⟨hfree, htakes, poll, hlog, hpoll⟩ |
        ⟨hfree, htakes, hlog⟩
      · exact .inl ⟨(hcovered _).mp hcov, List.mem_cons_of_mem _ hlog, hkept.trans hleases⟩
      · exact .inr (.inl ⟨mt (hcovered _).mpr hfree, htakes, poll, List.mem_cons_of_mem _ hlog, hpoll⟩)
      · exact .inr (.inr ⟨mt (hcovered _).mpr hfree, htakes, List.mem_cons_of_mem _ hlog⟩)

/-- After a sweep the same markers are current. -/
theorem current_dispatchDue (d : Dispatcher) (sweep : Sweep) (m : Memory) (marker : ScheduleMarker) :
    (d.dispatchDue sweep m).2.Current marker ↔ m.Current marker := by
  obtain ⟨hwatches, hmarkers, -⟩ :=
    dispatchAll_frame d sweep (m.dueScheduleMarkers sweep.now d.horizon d.batchSize) m
  unfold Memory.Current dispatchDue
  rw [hwatches, hmarkers]

/-- Sweeps one after another. -/
def dispatchPasses (d : Dispatcher) : List Sweep → Memory → List SweepLog × Memory
  | [], m => ([], m)
  | sweep :: rest, m =>
    let one := d.dispatchDue sweep m
    let all := d.dispatchPasses rest one.2
    (one.1 :: all.1, all.2)

end Dispatcher

/-- A marker was published by one of several sweeps. -/
def PublishedIn (logs : List SweepLog) (marker : ScheduleMarker) : Prop :=
  ∃ log ∈ logs, log.Published marker

instance (logs : List SweepLog) (marker : ScheduleMarker) : Decidable (PublishedIn logs marker) :=
  inferInstanceAs (Decidable (∃ log ∈ logs, log.Published marker))

/-- Every marker is the current one of an active watch, as after every run of the service. -/
structure Memory.Populated (m : Memory) : Prop where
  keyed : m.MarkersKeyed
  current : ∀ u marker, m.markers.get? u = some marker → m.Current marker

/-- Every store that the service reaches is populated. -/
theorem Store.populated {s : Store} (h : (storeMachine Served).Reach s) : s.mem.Populated := by
  have hrow : ∀ u marker, s.mem.markers.get? u = some marker →
      marker.watchId = u ∧ ∃ w, s.mem.watches.get? u = some w ∧ w.status = .active := by
    intro u marker hmarker
    have hcoherent := Store.coherent h u
    have hget : (s.row u).marker = some marker := hmarker
    cases hw : (s.row u).watch with
    | none =>
      rw [(Store.keyed (Store.lawful_of_served h) u).row.vacant hw] at hget
      contradiction
    | some w =>
      by_cases hactive : w.status = .active
      · obtain ⟨rt, due, hs⟩ := hcoherent.active w hw hactive
        obtain rfl := Option.some.inj (hs.marker.symm.trans hget)
        exact ⟨rfl, w, hw, hactive⟩
      · obtain ⟨rt, deadline, hf⟩ := hcoherent.terminal w hw hactive
        rw [hf.marker] at hget
        contradiction
  refine ⟨fun u marker hmarker => (hrow u marker hmarker).1, fun u marker hmarker => ?_⟩
  obtain ⟨rfl, hwatch⟩ := hrow u marker hmarker
  exact ⟨hmarker, hwatch⟩

/-- The markers of a store can be checked one by one. -/
theorem Memory.populated_of_entries {m : Memory}
    (h : ∀ e ∈ m.markers.entries, e.2.watchId = e.1 ∧
      ∃ w ∈ m.watches.get? e.1, w.status = .active) : m.Populated where
  keyed u marker hmarker := (h _ ((m.markers.get?_eq_some_iff).mp hmarker)).1
  current u marker hmarker := by
    obtain ⟨hid, w, hw, hactive⟩ := h _ ((m.markers.get?_eq_some_iff).mp hmarker)
    obtain rfl : marker.watchId = u := hid
    exact ⟨hmarker, w, hw, hactive⟩

namespace Dispatcher

variable {d : Dispatcher} {m : Memory}

theorem dispatchPasses_append (d : Dispatcher) (passes passes' : List Sweep) (m : Memory) :
    d.dispatchPasses (passes ++ passes') m =
      ((d.dispatchPasses passes m).1 ++ (d.dispatchPasses passes' (d.dispatchPasses passes m).2).1,
        (d.dispatchPasses passes' (d.dispatchPasses passes m).2).2) := by
  induction passes generalizing m with
  | nil => rfl
  | cons sweep rest ih =>
    rw [List.cons_append, dispatchPasses, ih]
    rfl

/-- Sweeps change leases only. -/
theorem dispatchPasses_frame (d : Dispatcher) (passes : List Sweep) (m : Memory) :
    (d.dispatchPasses passes m).2.watches = m.watches ∧
      (d.dispatchPasses passes m).2.markers = m.markers := by
  induction passes generalizing m with
  | nil => exact ⟨rfl, rfl⟩
  | cons sweep rest ih =>
    obtain ⟨hwatches, hmarkers, -⟩ :=
      dispatchAll_frame d sweep (m.dueScheduleMarkers sweep.now d.horizon d.batchSize) m
    obtain ⟨hwatches', hmarkers'⟩ := ih (d.dispatchDue sweep m).2
    exact ⟨hwatches'.trans hwatches, hmarkers'.trans hmarkers⟩

/-- What a sweep publishes is in its batch. -/
theorem dueScheduleMarkers_of_publishedIn {passes : List Sweep} {marker : ScheduleMarker}
    (h : PublishedIn (d.dispatchPasses passes m).1 marker) :
    ∃ sweep ∈ passes, marker ∈ m.dueScheduleMarkers sweep.now d.horizon d.batchSize := by
  induction passes generalizing m with
  | nil =>
    obtain ⟨log, hlog, -⟩ := h
    contradiction
  | cons sweep rest ih =>
    obtain ⟨log, hlog, hpublished⟩ := h
    rcases List.mem_cons.mp hlog with rfl | hlog
    · obtain ⟨poll, hmem, -⟩ := hpublished
      refine ⟨sweep, List.mem_cons_self, ?_⟩
      have hmap := List.mem_map_of_mem (f := Prod.fst) hmem
      rwa [dispatchDue, dispatchAll_log] at hmap
    · obtain ⟨sweep', hsweep', hmarker⟩ := ih ⟨log, hlog, hpublished⟩
      refine ⟨sweep', List.mem_cons_of_mem _ hsweep', ?_⟩
      rwa [Memory.dueScheduleMarkers, dispatchDue, (dispatchAll_frame d _ _ m).2.1] at hmarker

/-- With a queue that takes everything, the current marker of a watch is published by a sweep or keeps the
lease that it had. -/
theorem published_or_lease {sweep : Sweep} (htakes : ∀ u, sweep.takes u = true) (hkeyed : m.MarkersKeyed)
    {marker : ScheduleMarker} (hcurrent : m.Current marker) :
    (d.dispatchDue sweep m).1.Published marker ∨
      (d.dispatchDue sweep m).2.dispatchLeases.get? marker.watchId =
        m.dispatchLeases.get? marker.watchId := by
  have hnodup : ((m.dueScheduleMarkers sweep.now d.horizon d.batchSize).map
      ScheduleMarker.watchId).Nodup :=
    (Memory.nodup_dueMarkers hkeyed sweep.now d.horizon).sublist ((List.take_sublist _ _).map _)
  by_cases hmem : marker ∈ m.dueScheduleMarkers sweep.now d.horizon d.batchSize
  · rcases dispatchAll_outcome d sweep hnodup hmem hcurrent with
      ⟨-, -, hkept⟩ | ⟨-, -, hpublished⟩ | ⟨-, hrefused, -⟩
    · exact .inr hkept
    · exact .inl hpublished
    · rw [htakes] at hrefused
      contradiction
  · refine .inr ((dispatchAll_frame d _ _ m).2.2 _ fun hid => ?_)
    -- A marker of the same watch in the batch would be this one.
    obtain ⟨other, hother, hwatch⟩ := List.mem_map.mp hid
    have hdue := (Memory.mem_dueMarkers_iff hkeyed).mp (List.mem_of_mem_take hother)
    rw [hwatch, hcurrent.1] at hdue
    obtain rfl := Option.some.inj hdue.1
    exact hmem hother

/-- The same over several sweeps. -/
theorem publishedIn_or_lease {passes : List Sweep} (htakes : ∀ s ∈ passes, ∀ u, s.takes u = true)
    (hkeyed : m.MarkersKeyed) {marker : ScheduleMarker} (hcurrent : m.Current marker) :
    PublishedIn (d.dispatchPasses passes m).1 marker ∨
      (d.dispatchPasses passes m).2.dispatchLeases.get? marker.watchId =
        m.dispatchLeases.get? marker.watchId := by
  induction passes generalizing m with
  | nil => exact .inr rfl
  | cons sweep rest ih =>
    rcases published_or_lease (d := d) (htakes sweep List.mem_cons_self) hkeyed hcurrent with
      hpublished | hkept
    · exact .inl ⟨_, List.mem_cons_self, hpublished⟩
    · have hkeyed' : (d.dispatchDue sweep m).2.MarkersKeyed := by
        unfold Memory.MarkersKeyed dispatchDue
        rw [(dispatchAll_frame d _ _ m).2.1]
        exact hkeyed
      rcases ih (fun s hs => htakes s (List.mem_cons_of_mem _ hs)) hkeyed'
        ((current_dispatchDue d sweep m marker).mpr hcurrent) with ⟨log, hlog, hpublished⟩ | hkept'
      · exact .inl ⟨log, List.mem_cons_of_mem _ hlog, hpublished⟩
      · exact .inr (hkept'.trans hkept)

/-- A marker that a sweep reaches and that no lease covers then is published, if the queue takes it. -/
theorem published_of_not_covered {sweep : Sweep} (htakes : ∀ u, sweep.takes u = true)
    (hkeyed : m.MarkersKeyed) {marker : ScheduleMarker} (hcurrent : m.Current marker)
    (hmem : marker ∈ m.dueScheduleMarkers sweep.now d.horizon d.batchSize)
    (hfree : ¬ m.Covered marker (sweep.claimed marker.watchId)) :
    (d.dispatchDue sweep m).1.Published marker := by
  have hnodup : ((m.dueScheduleMarkers sweep.now d.horizon d.batchSize).map
      ScheduleMarker.watchId).Nodup :=
    (Memory.nodup_dueMarkers hkeyed sweep.now d.horizon).sublist ((List.take_sublist _ _).map _)
  rcases dispatchAll_outcome d sweep hnodup hmem hcurrent with
    ⟨hcovered, -, -⟩ | ⟨-, -, hpublished⟩ | ⟨-, hrefused, -⟩
  · exact absurd hcovered hfree
  · exact hpublished
  · rw [htakes] at hrefused
    contradiction

/-- Sweeps of one dispatcher with a working queue publish every marker that was in the horizon when the
first one started and that no lease from before them still covers when the last one starts, exactly when
every marker beyond the first batch is covered so: those are never reached, whatever the number of
sweeps. -/
theorem dispatch_progress_iff (d : Dispatcher) (hpopulated : m.Populated) {passes : List Sweep}
    (hsome : passes ≠ []) (hclock : passes.Pairwise fun s s' => s.now ≤ s'.now)
    (hclaims : ∀ s ∈ passes, ∀ u, s.now ≤ s.claimed u)
    (htakes : ∀ s ∈ passes, ∀ u, s.takes u = true) :
    (∀ marker ∈ m.dueMarkers (passes.head hsome).now d.horizon,
        ¬ m.Covered marker (passes.getLast hsome).now →
          PublishedIn (d.dispatchPasses passes m).1 marker) ↔
      ∀ marker ∈ (m.dueMarkers (passes.head hsome).now d.horizon).drop d.batchSize,
        m.Covered marker (passes.getLast hsome).now := by
  have hkeyed := hpopulated.keyed
  have hfirst : ∀ s ∈ passes, (passes.head hsome).now ≤ s.now := by
    obtain ⟨first, rest, rfl⟩ := List.exists_cons_of_ne_nil hsome
    intro s hs
    rcases List.mem_cons.mp hs with rfl | hs
    · exact le_rfl
    · exact (List.pairwise_cons.mp hclock).1 s hs
  generalize hstart : (passes.head hsome).now = start at hfirst
  constructor
  · intro hall marker hbeyond
    by_contra hfree
    obtain ⟨sweep, hsweep, hbatch⟩ :=
      dueScheduleMarkers_of_publishedIn (hall marker (List.mem_of_mem_drop hbeyond) hfree)
    -- The batch of every sweep is the first one, and the marker stands behind it.
    obtain ⟨later, hlater⟩ := m.dueMarkers_prefix (hfirst sweep hsweep) d.horizon
    have hlength : d.batchSize ≤ (m.dueMarkers start d.horizon).length := by
      have hpos := List.length_pos_of_mem hbeyond
      rw [List.length_drop] at hpos
      omega
    rw [Memory.dueScheduleMarkers_eq, ← hlater, List.take_append_of_le_length hlength] at hbatch
    have hnodup : (m.dueMarkers start d.horizon).Nodup :=
      (Memory.nodup_dueMarkers hkeyed start d.horizon).of_map _
    rw [← List.take_append_drop d.batchSize (m.dueMarkers start d.horizon)] at hnodup
    exact (List.nodup_append.mp hnodup).2.2 marker hbatch marker hbeyond rfl
  · intro hcovered marker hdue hfree
    have hcurrent : m.Current marker :=
      hpopulated.current _ marker ((Memory.mem_dueMarkers_iff hkeyed).mp hdue).1
    have hreached : marker ∈ (m.dueMarkers start d.horizon).take d.batchSize := by
      rw [← List.take_append_drop d.batchSize (m.dueMarkers start d.horizon)] at hdue
      rcases List.mem_append.mp hdue with htake | hdrop
      · exact htake
      · exact absurd (hcovered marker hdrop) hfree
    -- Unless an earlier sweep published it, the last one finds the lease from before them.
    obtain ⟨before, last, rfl⟩ : ∃ before last, passes = before ++ [last] :=
      ⟨passes.dropLast, passes.getLast hsome, (List.dropLast_append_getLast hsome).symm⟩
    rw [List.getLast_append_singleton] at hfree
    rw [dispatchPasses_append]
    rcases publishedIn_or_lease (d := d) (fun s hs => htakes s (List.mem_append_left _ hs)) hkeyed hcurrent
      with ⟨log, hlog, hpublished⟩ | hkept
    · exact ⟨log, List.mem_append_left _ hlog, hpublished⟩
    · obtain ⟨hwatches, hmarkers⟩ := dispatchPasses_frame d before m
      have hlast : last ∈ before ++ [last] := by simp
      generalize (d.dispatchPasses before m).2 = m' at hkept hwatches hmarkers
      refine ⟨(d.dispatchDue last m').1, by simp [dispatchPasses], ?_⟩
      have hsame : m'.dueMarkers last.now d.horizon = m.dueMarkers last.now d.horizon := by
        unfold Memory.dueMarkers
        rw [hmarkers]
      refine published_of_not_covered (htakes last hlast) ?_ ?_ ?_ ?_
      · unfold Memory.MarkersKeyed
        rw [hmarkers]
        exact hkeyed
      · unfold Memory.Current
        rw [hmarkers, hwatches]
        exact hcurrent
      · rw [Memory.dueScheduleMarkers_eq, hsame]
        exact ((m.dueMarkers_prefix (hfirst last hlast) d.horizon).take _).subset hreached
      · intro hcov
        refine hfree (Memory.Covered.mono ?_ (hclaims last hlast marker.watchId))
        unfold Memory.Covered at hcov ⊢
        rwa [hkept] at hcov

end Dispatcher

/-- Three watches that were just created, due at once. -/
def threeDue : Memory :=
  ["a", "b", "c"].foldl (fun m u =>
    let watch := Watch.sample u false 1000000000 200
    (m.createWithSchedule watch (initialRuntime watch 200 true none)).2) (.empty 86400000000)

/-- A dispatcher with the source's lease and grace. -/
def Dispatcher.sample (batchSize : ℕ) : Dispatcher := ⟨"worker", 0, 30000000, 60000000, batchSize⟩

/-- A sweep at an instant, with a queue that works. -/
def Sweep.working (now : Time) : Sweep := ⟨now, fun _ => now, fun _ => true⟩

theorem threeDue_populated : threeDue.Populated :=
  Memory.populated_of_entries (by decide +kernel)

/-- They stay in the order in which they were created. -/
theorem threeDue_due {now : Time} (h : 0 ≤ now) :
    threeDue.dueMarkers now 0 = [⟨"a", "a:0", 0⟩, ⟨"b", "b:0", 0⟩, ⟨"c", "c:0", 0⟩] := by
  have hmarkers : threeDue.markers.entries.map Prod.snd =
      [⟨"a", "a:0", 0⟩, ⟨"b", "b:0", 0⟩, ⟨"c", "c:0", 0⟩] := by decide +kernel
  have hnow : (0 : ℤ) ≤ now + 0 := by simpa using h
  rw [Memory.dueMarkers, hmarkers]
  rw [List.filter_eq_self.mpr (by simpa using hnow)]
  exact List.mergeSort_of_pairwise (by decide)

/-- A batch that holds all three markers is published, the third one too. -/
theorem Dispatcher.dispatch_progress_iff_whole :
    PublishedIn ((Dispatcher.sample 3).dispatchPasses [.working 0, .working 1000000] threeDue).1
      ⟨"c", "c:0", 0⟩ := by
  have hsome : [Sweep.working 0, Sweep.working 1000000] ≠ [] := by simp
  have hdue := threeDue_due (le_refl 0)
  refine (dispatch_progress_iff (Dispatcher.sample 3) threeDue_populated hsome (by decide) ?_ ?_).mpr ?_
    _ ?_ ?_
  · intro sweep hsweep u
    rcases List.mem_pair.mp hsweep with rfl | rfl <;> exact le_rfl
  · intro sweep hsweep u
    rcases List.mem_pair.mp hsweep with rfl | rfl <;> rfl
  · show ∀ marker ∈ (threeDue.dueMarkers 0 0).drop 3, _
    rw [hdue]
    simp
  · show _ ∈ threeDue.dueMarkers 0 0
    rw [hdue]
    simp
  · rintro ⟨held, hheld, -⟩
    have hempty : threeDue.dispatchLeases = .empty := by decide +kernel
    rw [hempty] at hheld
    contradiction

/-- Three markers, batches of two, two sweeps a second apart: the third marker is never published,
although no lease ever covered it. -/
theorem dispatch_starves :
    let passes := [Sweep.working 0, Sweep.working 1000000]
    threeDue.Populated ∧ threeDue.dispatchLeases = .empty ∧
      (threeDue.dueMarkers 0 0).length = 3 ∧ passes.length = (3 + 2 - 1) / 2 ∧
      ⟨"c", "c:0", 0⟩ ∈ threeDue.dueMarkers 0 0 ∧
      ¬ PublishedIn ((Dispatcher.sample 2).dispatchPasses passes threeDue).1 ⟨"c", "c:0", 0⟩ := by
  intro passes
  have hdue := threeDue_due (le_refl 0)
  refine ⟨threeDue_populated, by decide +kernel, by rw [hdue]; rfl, rfl, by rw [hdue]; simp, ?_⟩
  intro hpublished
  obtain ⟨sweep, hsweep, hbatch⟩ := Dispatcher.dueScheduleMarkers_of_publishedIn hpublished
  have hnow : 0 ≤ sweep.now := by
    rcases List.mem_pair.mp hsweep with rfl | rfl <;> decide
  rw [Memory.dueScheduleMarkers_eq, show (Dispatcher.sample 2).horizon = 0 from rfl,
    threeDue_due hnow] at hbatch
  revert hbatch
  decide

end Dibs
