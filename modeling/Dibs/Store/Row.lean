import Mathlib.Logic.Function.Basic
import Dibs.Store.Memory

/-!
# The in-memory store, one watch at a time

Every method of the in-memory repository but the bounded cleanup reads and writes the tables at one
watch id. `Memory.row` gathers what the tables hold under an id, and each method gets one lemma that
says everything it can do: either it returned a result that applied nothing and left the store as it
was, or its guards held, its result is the given one, and it replaced exactly one row. Later proofs
reason about rows and unfold neither the methods nor the tables.
-/

namespace Dibs

/-- What the tables of the store hold under one watch id. -/
@[ext]
structure Row where
  watch : Option Watch
  runtime : Option WatchRuntime
  fence : Option ℕ
  claim : Option ClaimLease
  dispatchFence : Option ℕ
  dispatchLease : Option DispatchLease
  marker : Option ScheduleMarker
  deadline : Option Time
deriving DecidableEq

/-- The row of a watch id nothing is stored under. -/
def Row.vacant : Row := ⟨none, none, none, none, none, none, none, none⟩

/-- The marker that a runtime schedules. -/
def markerOf (watchId : String) (runtime : WatchRuntime) : Option ScheduleMarker :=
  match runtime.windowId, runtime.scheduledFor with
  | some windowId, some scheduledFor => some ⟨watchId, windowId, scheduledFor⟩
  | _, _ => none

/-- The event id of a terminal transition, for the statuses that are announced. -/
def eventOf (watchId : String) (status : WatchStatus) (revision : ℕ) : Option String :=
  if status.hasEvent then some (terminalEventId watchId status revision) else none

/-- The sidecar that `cancel_if_active` and `expire_if_eligible` leave. -/
def WatchRuntime.finished (runtime : WatchRuntime) (deadline : Time) : WatchRuntime :=
  { runtime with
    revision := runtime.revision + 1
    windowId := none
    scheduledFor := none
    phase := none
    cancelRequested := false
    terminalDeleteAt := some deadline }

/-- The document that `cancel_if_active` and `expire_if_eligible` leave. -/
def Watch.ended (w : Watch) (status : WatchStatus) (now : Time) : Watch :=
  { w with status := status, nextCheckAt := none, updatedAt := now }

@[simp]
theorem Watch.ended_watchId (w : Watch) (status : WatchStatus) (now : Time) :
    (w.ended status now).watchId = w.watchId := rfl

@[simp]
theorem Watch.ended_status (w : Watch) (status : WatchStatus) (now : Time) :
    (w.ended status now).status = status := rfl

/-- The row after a terminal transition. -/
def Row.finish (r : Row) (watch : Watch) (runtime : Option WatchRuntime) (deadline : Time) : Row :=
  { r with
    watch := some watch
    runtime := runtime
    claim := none
    dispatchLease := none
    marker := none
    deadline := some deadline }

/-- The row after a commit that leaves the watch active. -/
def Row.reschedule (r : Row) (watchId : String) (watch : Watch) (runtime : WatchRuntime) : Row :=
  { r with
    watch := some watch
    runtime := some runtime
    claim := none
    marker := markerOf watchId runtime }

/-- The ownership check of `_owns` on a row. -/
def Row.Owns (r : Row) (now : Time) (claim : WindowClaim) : Prop :=
  ∃ held, r.claim = some held ∧ held.token = claim.token ∧ held.ownerId = claim.ownerId ∧
    now < held.expiresAt

/-- Whether a commit was applied. -/
def CommitResult.isCommitted : CommitResult → Bool
  | .committed _ _ => true
  | _ => false

/-- Whether a lifecycle transition was applied. -/
def TransitionResult.isApplied : TransitionResult → Bool
  | .applied _ _ _ => true
  | _ => false

namespace Memory

open Function (update)

/-- What the tables hold under a watch id. -/
def row (m : Memory) (u : String) : Row where
  watch := m.watches.get? u
  runtime := m.runtimes.get? u
  fence := m.fence.get? u
  claim := m.claims.get? u
  dispatchFence := m.dispatchFence.get? u
  dispatchLease := m.dispatchLeases.get? u
  marker := m.markers.get? u
  deadline := m.terminalDeleteAt.get? u

/-- `m'` is `m` with the row of `u` replaced. -/
theorem row_eq_update {m m' : Memory} {u : String} {r : Row} (hu : m'.row u = r)
    (hne : ∀ v, u ≠ v → m'.row v = m.row v) : m'.row = update m.row u r := by
  funext v
  by_cases h : v = u
  · rw [h, hu, Function.update_self]
  · rw [hne v (Ne.symm h), Function.update_of_ne h]

@[simp]
theorem row_empty (d : Duration) (u : String) : (empty d).row u = Row.vacant := rfl

/-- The ownership check of the store is that of the claim's row, at the claim's revision. -/
theorem owns_iff (m : Memory) (now : Time) (claim : WindowClaim) (runtime : WatchRuntime) :
    m.owns now claim runtime = true ↔
      runtime.revision = claim.runtime.revision ∧ (m.row claim.watch.watchId).Owns now claim := by
  unfold owns Row.Owns
  cases h : m.claims.get? claim.watch.watchId with
  | none => simp [row, h]
  | some held => simp [row, h, and_assoc]

/-- `_set_marker` sets the marker of one row. -/
theorem row_setMarker (m : Memory) (u : String) (runtime : WatchRuntime) :
    (m.setMarker u runtime).row = update m.row u { m.row u with marker := markerOf u runtime } := by
  cases hw : runtime.windowId <;> cases hs : runtime.scheduledFor <;>
    apply row_eq_update <;>
    simp +contextual [setMarker, markerOf, row, hw, hs, Dict.get?_insert_ne, Dict.get?_erase_ne]

/-- `_issue_event` touches no row. -/
theorem row_issueEvent (m : Memory) (u : String) (status : WatchStatus) (revision : ℕ) :
    (m.issueEvent u status revision).2.row = m.row := by
  unfold issueEvent
  split <;> rfl

/-- `_issue_event` returns the event id of the statuses that are announced. -/
theorem issueEvent_fst (m : Memory) (u : String) (status : WatchStatus) (revision : ℕ) :
    (m.issueEvent u status revision).1 = eventOf u status revision := by
  unfold issueEvent eventOf
  split <;> rfl

/-- `_apply_terminal` finishes one row. -/
theorem row_applyTerminal (m : Memory) (u : String) (watch : Watch) (now : Time) :
    (m.applyTerminal u watch (m.runtimes.get? u) now).2.row = update m.row u
      ((m.row u).finish watch ((m.row u).runtime.map (·.finished (now + m.retention)))
        (now + m.retention)) := by
  unfold applyTerminal
  cases h : m.runtimes.get? u with
  | none =>
    apply row_eq_update
    · simp [row, Row.finish, h]
    · intro v hv
      simp [row, Dict.get?_insert_ne, Dict.get?_erase_ne, hv]
  | some runtime =>
    apply row_eq_update
    · simp [row, Row.finish, h, WatchRuntime.finished]
    · intro v hv
      simp [row, Dict.get?_insert_ne, Dict.get?_erase_ne, hv]

/-- The revision that `_apply_terminal` returns. -/
theorem applyTerminal_fst (m : Memory) (u : String) (watch : Watch) (runtime : Option WatchRuntime)
    (now : Time) :
    (m.applyTerminal u watch runtime now).1 = (runtime.map (·.revision + 1)).getD 0 := by
  cases runtime <;> rfl

/-! ## What each method does -/

/-- `create_with_schedule` stores a watch under an unused id, with its sidecar and marker. -/
theorem createWithSchedule_cases (m : Memory) (watch : Watch) (runtime : WatchRuntime) :
    ((m.row watch.watchId).watch = none ∧
      (m.createWithSchedule watch runtime).1 = .created watch runtime ∧
      (m.createWithSchedule watch runtime).2.row = update m.row watch.watchId
        { m.row watch.watchId with
          watch := some watch
          runtime := some runtime
          fence := some 0
          marker := markerOf watch.watchId runtime }) ∨
    ((∃ stored r, (m.row watch.watchId).watch = some stored ∧
        (m.createWithSchedule watch runtime).1 = .alreadyExists stored r) ∧
      (m.createWithSchedule watch runtime).2 = m) := by
  unfold createWithSchedule
  cases h : m.watches.get? watch.watchId with
  | some stored => exact .inr ⟨⟨stored, _, h, rfl⟩, rfl⟩
  | none =>
    refine .inl ⟨h, rfl, ?_⟩
    apply row_eq_update
    · rw [row_setMarker, Function.update_self]
      simp [row]
    · intro v hv
      rw [row_setMarker, Function.update_of_ne (Ne.symm hv)]
      simp [row, Dict.get?_insert_ne, hv]

/-- `claim_window` grants a claim on a due, unclaimed current window of an active watch. -/
theorem claimWindow_cases (m : Memory) (now : Time) (u w o : String) (lease : Duration)
    (ignoreSchedule : Bool) :
    (∃ watch runtime, (m.row u).watch = some watch ∧ (m.row u).runtime = some runtime ∧
      watch.status = .active ∧ runtime.windowId = some w ∧
      (ignoreSchedule = false → ∀ due, runtime.scheduledFor = some due → due ≤ now) ∧
      (∀ held, (m.row u).claim = some held → held.windowId = w → held.expiresAt ≤ now) ∧
      (m.claimWindow now u w o lease ignoreSchedule).1 =
        .owned ⟨watch, runtime, o, w, (m.row u).fence.getD 0 + 1, now + lease⟩ ∧
      (m.claimWindow now u w o lease ignoreSchedule).2.row = update m.row u
        { m.row u with
          fence := some ((m.row u).fence.getD 0 + 1)
          claim := some ⟨w, o, (m.row u).fence.getD 0 + 1, now + lease⟩ }) ∨
    ((∀ c, (m.claimWindow now u w o lease ignoreSchedule).1 ≠ .owned c) ∧
      (m.claimWindow now u w o lease ignoreSchedule).2 = m) := by
  unfold claimWindow
  split
  · rename_i watch runtime hw hr
    split_ifs with hterm hwin hearly hbusy
    · exact .inr ⟨by simp, rfl⟩
    · exact .inr ⟨by simp, rfl⟩
    · exact .inr ⟨by simp, rfl⟩
    · exact .inr ⟨by simp, rfl⟩
    · refine .inl ⟨watch, runtime, hw, hr, by simpa using hterm, by simpa using hwin, ?_, ?_, rfl, ?_⟩
      · intro hi due hd
        simpa [hi, hd] using hearly
      · intro held hh he
        have hh' : m.claims.get? u = some held := hh
        simpa [hh', he] using hbusy
      · apply row_eq_update
        · simp [row]
        · intro v hv
          simp [row, Dict.get?_insert_ne, hv]
  · exact .inr ⟨by simp, rfl⟩

/-- `claim_window` grants every claim on a due, unclaimed current window of an active watch. -/
theorem claimWindow_owned {m : Memory} {now : Time} {u w o : String} {lease : Duration}
    {ignoreSchedule : Bool} {watch : Watch} {runtime : WatchRuntime}
    (hwatch : (m.row u).watch = some watch) (hruntime : (m.row u).runtime = some runtime)
    (hactive : watch.status = .active) (hwindow : runtime.windowId = some w)
    (hdue : ignoreSchedule = false → ∀ due, runtime.scheduledFor = some due → due ≤ now)
    (hfree : ∀ held, (m.row u).claim = some held → held.windowId = w → held.expiresAt ≤ now) :
    ∃ c, (m.claimWindow now u w o lease ignoreSchedule).1 = .owned c := by
  have hw : m.watches.get? u = some watch := hwatch
  have hr : m.runtimes.get? u = some runtime := hruntime
  have hterm : ¬ watch.status.isTerminal = true := by simp [hactive]
  have hearly : ¬ (!ignoreSchedule && runtime.scheduledFor.any fun due => decide (now < due)) = true := by
    cases hi : ignoreSchedule with
    | true => simp
    | false =>
      cases hs : runtime.scheduledFor with
      | none => simp
      | some due => simpa using hdue hi due hs
  have hbusy : ¬ ((m.claims.get? u).any fun held =>
      held.windowId = w && decide (now < held.expiresAt)) = true := by
    cases hc : m.claims.get? u with
    | none => simp
    | some held => simpa using hfree held hc
  simp only [claimWindow, hw, hr]
  rw [if_neg hterm, if_neg (by simp [hwindow]), if_neg hearly, if_neg hbusy]
  exact ⟨_, rfl⟩

/-- `begin_booking` grants a permit to the owner of an active watch that nobody asked to cancel. -/
theorem beginBooking_cases (m : Memory) (now : Time) (c : WindowClaim) :
    (∃ watch runtime, (m.row c.watch.watchId).watch = some watch ∧
      (m.row c.watch.watchId).runtime = some runtime ∧ watch.status = .active ∧
      runtime.revision = c.runtime.revision ∧ (m.row c.watch.watchId).Owns now c ∧
      runtime.cancelRequested = false ∧
      (∃ permitId, (m.beginBooking now c).1 = .granted permitId) ∧
      (m.beginBooking now c).2.row = update m.row c.watch.watchId
        { m.row c.watch.watchId with runtime := some { runtime with phase := some .booking } }) ∨
    ((∀ p, (m.beginBooking now c).1 ≠ .granted p) ∧ (m.beginBooking now c).2 = m) := by
  unfold beginBooking
  simp only
  split
  · rename_i watch runtime hw hr
    split_ifs with hterm howns hcancel
    · exact .inr ⟨by simp, rfl⟩
    · exact .inr ⟨by simp, rfl⟩
    · exact .inr ⟨by simp, rfl⟩
    · obtain ⟨hrev, ho⟩ := (owns_iff m now c runtime).mp (by simpa using howns)
      refine .inl ⟨watch, runtime, hw, hr, by simpa using hterm, hrev, ho, by simpa using hcancel,
        ⟨_, rfl⟩, ?_⟩
      apply row_eq_update
      · simp [row]
      · intro v hv
        simp [row, Dict.get?_insert_ne, hv]
  · exact .inr ⟨by simp, rfl⟩

/-- `commit_window` applies the result of the owner of an active watch: a successor window, or a
terminal watch with its retention deadline and event. -/
theorem commitWindow_cases (m : Memory) (now : Time) (c : WindowClaim) (nw : Watch)
    (nr : WatchRuntime) :
    (∃ watch runtime, (m.row c.watch.watchId).watch = some watch ∧
      (m.row c.watch.watchId).runtime = some runtime ∧ watch.status = .active ∧
      runtime.revision = c.runtime.revision ∧ (m.row c.watch.watchId).Owns now c ∧
      ((nw.status = .active ∧ (m.commitWindow now c nw nr).1 = .committed nw none ∧
        (m.commitWindow now c nw nr).2.row = update m.row c.watch.watchId
          ((m.row c.watch.watchId).reschedule c.watch.watchId nw
            { nr with revision := runtime.revision + 1, phase := none })) ∨
      (nw.status ≠ .active ∧
        (m.commitWindow now c nw nr).1 =
          .committed nw (eventOf c.watch.watchId nw.status (runtime.revision + 1)) ∧
        (m.commitWindow now c nw nr).2.row = update m.row c.watch.watchId
          ((m.row c.watch.watchId).finish nw
            (some { nr with
              revision := runtime.revision + 1
              phase := none
              terminalDeleteAt := some (now + m.retention) }) (now + m.retention))))) ∨
    ((m.commitWindow now c nw nr).1.isCommitted = false ∧ (m.commitWindow now c nw nr).2 = m) := by
  unfold commitWindow
  simp only
  split
  · rename_i watch runtime hw hr
    split_ifs with hterm howns hnew
    · exact .inr ⟨rfl, rfl⟩
    · exact .inr ⟨rfl, rfl⟩
    · obtain ⟨hrev, ho⟩ := (owns_iff m now c runtime).mp (by simpa using howns)
      refine .inl ⟨watch, runtime, hw, hr, by simpa using hterm, hrev, ho,
        .inr ⟨by simpa using hnew, by rw [issueEvent_fst], ?_⟩⟩
      rw [row_issueEvent]
      apply row_eq_update
      · simp [row, Row.finish]
      · intro v hv
        simp [row, Dict.get?_insert_ne, Dict.get?_erase_ne, hv]
    · obtain ⟨hrev, ho⟩ := (owns_iff m now c runtime).mp (by simpa using howns)
      refine .inl ⟨watch, runtime, hw, hr, by simpa using hterm, hrev, ho,
        .inl ⟨by simpa using hnew, rfl, ?_⟩⟩
      apply row_eq_update
      · rw [row_setMarker, Function.update_self]
        simp [row, Row.reschedule]
      · intro v hv
        rw [row_setMarker, Function.update_of_ne (Ne.symm hv)]
        simp [row, Dict.get?_insert_ne, Dict.get?_erase_ne, hv]
  · exact .inr ⟨rfl, rfl⟩

/-- `commit_window` applies the commit of the owner of an active watch. -/
theorem commitWindow_owned {m : Memory} {now : Time} {c : WindowClaim} {watch : Watch}
    {runtime : WatchRuntime} (hwatch : (m.row c.watch.watchId).watch = some watch)
    (hruntime : (m.row c.watch.watchId).runtime = some runtime) (hactive : watch.status = .active)
    (hrev : runtime.revision = c.runtime.revision) (howns : (m.row c.watch.watchId).Owns now c)
    (nw : Watch) (nr : WatchRuntime) : (m.commitWindow now c nw nr).1.isCommitted = true := by
  have hw : m.watches.get? c.watch.watchId = some watch := hwatch
  have hr : m.runtimes.get? c.watch.watchId = some runtime := hruntime
  have hterm : ¬ watch.status.isTerminal = true := by simp [hactive]
  have hown : m.owns now c runtime = true := (owns_iff m now c runtime).mpr ⟨hrev, howns⟩
  simp only [commitWindow, hw, hr]
  rw [if_neg hterm, if_neg (by simp [hown])]
  split_ifs <;> rfl

/-- `cancel_if_active` cancels an active watch with no booking in flight, and records the intent on
one with a booking in flight. -/
theorem cancelIfActive_cases (m : Memory) (now : Time) (u : String) :
    (∃ watch runtime, (m.row u).watch = some watch ∧ (m.row u).runtime = some runtime ∧
      watch.status = .active ∧ runtime.phase = some .booking ∧
      (m.cancelIfActive now u).1 = .notEligible watch ∧
      (m.cancelIfActive now u).2.row = update m.row u
        { m.row u with runtime := some { runtime with cancelRequested := true } }) ∨
    (∃ watch, (m.row u).watch = some watch ∧ watch.status = .active ∧
      (∀ runtime, (m.row u).runtime = some runtime → runtime.phase ≠ some .booking) ∧
      (m.cancelIfActive now u).1 = .applied (watch.ended .cancelled now) none
        (((m.row u).runtime.map (·.revision + 1)).getD 0) ∧
      (m.cancelIfActive now u).2.row = update m.row u
        ((m.row u).finish (watch.ended .cancelled now)
          ((m.row u).runtime.map (·.finished (now + m.retention))) (now + m.retention))) ∨
    ((m.row u).watch = none ∧ (m.cancelIfActive now u) = (.unknown, m)) ∨
    (∃ watch, (m.row u).watch = some watch ∧ watch.status ≠ .active ∧
      (m.cancelIfActive now u) = (.noop watch, m)) := by
  unfold cancelIfActive
  split
  · rename_i hw
    exact .inr (.inr (.inl ⟨hw, rfl⟩))
  · rename_i watch hw
    split_ifs with hterm
    · exact .inr (.inr (.inr ⟨watch, hw, by simpa using hterm, rfl⟩))
    · have hact : watch.status = .active := by simpa using hterm
      dsimp only
      split
      · rename_i runtime hf
        obtain ⟨hr, hp⟩ := Option.filter_eq_some_iff.mp hf
        refine .inl ⟨watch, runtime, hw, hr, hact, by simpa using hp, rfl, ?_⟩
        apply row_eq_update
        · simp [row]
        · intro v hv
          simp [row, Dict.get?_insert_ne, hv]
      · rename_i hf
        refine .inr (.inl ⟨watch, hw, hact, ?_, ?_, row_applyTerminal m u _ now⟩)
        · intro runtime hr hp
          have hr' : m.runtimes.get? u = some runtime := hr
          simp [hr', Option.filter, hp] at hf
        · rw [applyTerminal_fst]
          rfl

/-- `expire_if_eligible` expires an active watch, when it is exhausted unless it is forced. -/
theorem expireIfEligible_cases (m : Memory) (now : Time) (u : String) (expected : Option ℕ)
    (force : Bool) :
    (∃ watch, (m.row u).watch = some watch ∧ watch.status = .active ∧
      (force = false → watch.isExhausted now = true) ∧
      (m.expireIfEligible now u expected force).1 = .applied (watch.ended .expired now)
        (eventOf u .expired (((m.row u).runtime.map (·.revision + 1)).getD 0))
        (((m.row u).runtime.map (·.revision + 1)).getD 0) ∧
      (m.expireIfEligible now u expected force).2.row = update m.row u
        ((m.row u).finish (watch.ended .expired now)
          ((m.row u).runtime.map (·.finished (now + m.retention))) (now + m.retention))) ∨
    ((m.expireIfEligible now u expected force).1.isApplied = false ∧
      (m.expireIfEligible now u expected force).2 = m) := by
  unfold expireIfEligible
  split
  · exact .inr ⟨rfl, rfl⟩
  · rename_i watch hw
    dsimp only
    split_ifs with hterm hfence hforce
    · exact .inr ⟨rfl, rfl⟩
    · exact .inr ⟨rfl, rfl⟩
    · exact .inr ⟨rfl, rfl⟩
    · refine .inl ⟨watch, hw, by simpa using hterm, fun hf => by simpa [hf] using hforce, ?_, ?_⟩
      · rw [issueEvent_fst, applyTerminal_fst]
        rfl
      · rw [row_issueEvent, row_applyTerminal]
        rfl

/-- `release_claim` drops the claim in force when it is the given one. -/
theorem releaseClaim_cases (m : Memory) (c : WindowClaim) :
    ((∃ held, (m.row c.watch.watchId).claim = some held ∧ held.token = c.token ∧
        held.ownerId = c.ownerId) ∧
      (m.releaseClaim c).1 = true ∧
      (m.releaseClaim c).2.row = update m.row c.watch.watchId
        { m.row c.watch.watchId with claim := none }) ∨
    ((m.releaseClaim c).1 = false ∧ (m.releaseClaim c).2 = m) := by
  unfold releaseClaim
  split_ifs with h
  · obtain ⟨held, hh, he⟩ := (Option.any_eq_true _ _).mp h
    refine .inl ⟨⟨held, hh, by simpa using he⟩, rfl, ?_⟩
    apply row_eq_update
    · simp [row]
    · intro v hv
      simp [row, Dict.get?_erase_ne, hv]
  · exact .inr ⟨rfl, rfl⟩

/-- `claim_dispatch` grants the lease on the current marker of an active watch that no unexpired
lease covers. -/
theorem claimDispatch_cases (m : Memory) (now : Time) (k : ScheduleMarker) (o : String)
    (lease : Duration) :
    (∃ watch current, (m.row k.watchId).watch = some watch ∧
      (m.row k.watchId).marker = some current ∧ watch.status = .active ∧
      current.windowId = k.windowId ∧
      (∀ held, (m.row k.watchId).dispatchLease = some held → held.windowId = k.windowId →
        held.expiresAt ≤ now) ∧
      (m.claimDispatch now k o lease).1 = .claimed ⟨k.watchId, k.windowId, current.scheduledFor, o,
        (m.row k.watchId).dispatchFence.getD 0 + 1, now + lease⟩ ∧
      (m.claimDispatch now k o lease).2.row = update m.row k.watchId
        { m.row k.watchId with
          dispatchFence := some ((m.row k.watchId).dispatchFence.getD 0 + 1)
          dispatchLease := some ⟨k.windowId, o, (m.row k.watchId).dispatchFence.getD 0 + 1,
            now + lease⟩ }) ∨
    ((∀ c, (m.claimDispatch now k o lease).1 ≠ .claimed c) ∧
      (m.claimDispatch now k o lease).2 = m) := by
  unfold claimDispatch
  split
  · rename_i watch current hw hk
    split_ifs with hstale hbusy
    · exact .inr ⟨by simp, rfl⟩
    · exact .inr ⟨by simp, rfl⟩
    · obtain ⟨hact, hwin⟩ : watch.status = .active ∧ current.windowId = k.windowId := by
        simpa using hstale
      refine .inl ⟨watch, current, hw, hk, hact, hwin, ?_, rfl, ?_⟩
      · intro held hh he
        have hh' : m.dispatchLeases.get? k.watchId = some held := hh
        simpa [hh', he] using hbusy
      · apply row_eq_update
        · simp [row]
        · intro v hv
          simp [row, Dict.get?_insert_ne, hv]
  · exact .inr ⟨by simp, rfl⟩

/-- `mark_dispatched` moves the expiry of the dispatch lease that the claim names. -/
theorem markDispatched_cases (m : Memory) (c : DispatchClaim) (after : Time) :
    (∃ held, (m.row c.watchId).dispatchLease = some held ∧ held.generation = c.generation ∧
      held.ownerId = c.ownerId ∧ (m.markDispatched c after).1 = true ∧
      (m.markDispatched c after).2.row = update m.row c.watchId
        { m.row c.watchId with dispatchLease := some { held with expiresAt := after } }) ∨
    ((m.markDispatched c after).1 = false ∧ (m.markDispatched c after).2 = m) := by
  unfold markDispatched
  split
  · rename_i held hf
    obtain ⟨hh, ho⟩ := Option.filter_eq_some_iff.mp hf
    obtain ⟨hg, hw⟩ : held.generation = c.generation ∧ held.ownerId = c.ownerId := by
      simpa [ownsDispatch] using ho
    refine .inl ⟨held, hh, hg, hw, rfl, ?_⟩
    apply row_eq_update
    · simp [row]
    · intro v hv
      simp [row, Dict.get?_insert_ne, hv]
  · exact .inr ⟨rfl, rfl⟩

/-- `release_dispatch` drops the dispatch lease that the claim names. -/
theorem releaseDispatch_cases (m : Memory) (c : DispatchClaim) :
    ((∃ held, (m.row c.watchId).dispatchLease = some held ∧ held.generation = c.generation ∧
        held.ownerId = c.ownerId) ∧ (m.releaseDispatch c).1 = true ∧
      (m.releaseDispatch c).2.row = update m.row c.watchId
        { m.row c.watchId with dispatchLease := none }) ∨
    ((m.releaseDispatch c).1 = false ∧ (m.releaseDispatch c).2 = m) := by
  unfold releaseDispatch
  split_ifs with h
  · obtain ⟨held, hh, ho⟩ := (Option.any_eq_true _ _).mp h
    refine .inl ⟨⟨held, hh, by simpa [ownsDispatch] using ho⟩, rfl, ?_⟩
    apply row_eq_update
    · simp [row]
    · intro v hv
      simp [row, Dict.get?_erase_ne, hv]
  · exact .inr ⟨rfl, rfl⟩

/-- `synthesize_marker` gives an active watch that has neither a marker nor an unexpired claim the
given sidecar and its marker. -/
theorem synthesizeMarker_cases (m : Memory) (now : Time) (u : String) (runtime : WatchRuntime) :
    (∃ watch, (m.row u).watch = some watch ∧ watch.status = .active ∧ (m.row u).marker = none ∧
      (∀ held, (m.row u).claim = some held → held.expiresAt ≤ now) ∧
      (m.synthesizeMarker now u runtime).1 = (markerOf u runtime).isSome ∧
      (m.synthesizeMarker now u runtime).2.row = update m.row u
        { m.row u with
          runtime := some runtime
          fence := some ((m.row u).fence.getD 0)
          marker := markerOf u runtime }) ∨
    ((m.synthesizeMarker now u runtime).1 = false ∧ (m.synthesizeMarker now u runtime).2 = m) := by
  unfold synthesizeMarker
  split
  · exact .inr ⟨rfl, rfl⟩
  · rename_i watch hw
    dsimp only
    split_ifs with hterm hlive hmark
    · exact .inr ⟨rfl, rfl⟩
    · exact .inr ⟨rfl, rfl⟩
    · exact .inr ⟨rfl, rfl⟩
    · have hk : m.markers.get? u = none := by
        simpa using hmark
      have hrow : ∀ fence, fence.get? u = some ((m.fence.get? u).getD 0) →
          (∀ v, u ≠ v → fence.get? v = m.fence.get? v) →
          (setMarker { m with
            runtimes := m.runtimes.insert u runtime, fence := fence } u runtime).row = update m.row u
              { m.row u with
                runtime := some runtime
                fence := some ((m.row u).fence.getD 0)
                marker := markerOf u runtime } := by
        intro fence hu hne
        apply row_eq_update
        · rw [row_setMarker, Function.update_self]
          simp [row, hu]
        · intro v hv
          rw [row_setMarker, Function.update_of_ne (Ne.symm hv)]
          simp [row, Dict.get?_insert_ne, hv, hne v hv]
      refine .inl ⟨watch, hw, by simpa using hterm, hk, ?_, ?_, ?_⟩
      · intro held hh
        have hh' : m.claims.get? u = some held := hh
        simpa [hh'] using hlive
      · cases hw : runtime.windowId <;> cases hs : runtime.scheduledFor <;>
          simp [setMarker, markerOf, hw, hs]
      · split
        · rename_i f hf
          exact hrow m.fence (by simp [hf]) fun _ _ => rfl
        · rename_i hf
          exact hrow _ (by simp [hf]) fun v hv => Dict.get?_insert_ne _ _ hv

/-- `remove` vacates one row. -/
theorem row_remove (m : Memory) (u : String) : (m.remove u).row = update m.row u Row.vacant := by
  apply row_eq_update
  · simp [row, remove, Row.vacant]
  · intro v hv
    simp [row, remove, Dict.get?_erase_ne, hv]

/-- What bounded cleanup does to one watch: nothing, or it removes a finished watch whole, or it
drops the cleanup entry of one that is gone or not finished. -/
def CleanupStep (r r' : Row) : Prop :=
  r' = r ∨ ((∃ w, r.watch = some w ∧ w.status ≠ .active) ∧ r' = Row.vacant) ∨
    ((∀ w, r.watch = some w → w.status = .active) ∧ r' = { r with deadline := none })

/-- One iteration of the cleanup loop. -/
theorem cleanupOne_step (acc : ℕ × Memory) (u v : String) :
    CleanupStep (acc.2.row v) ((cleanupOne acc u).2.row v) := by
  have drop : ∀ v, u ≠ v →
      ({ acc.2 with terminalDeleteAt := acc.2.terminalDeleteAt.erase u } : Memory).row v =
        acc.2.row v := fun v hv => by simp [row, Dict.get?_erase_ne, hv]
  unfold cleanupOne
  split
  · rename_i watch hw
    split_ifs with hterm
    · rw [row_remove]
      by_cases h : v = u
      · subst h
        exact .inr (.inl ⟨⟨watch, hw, by simpa using hterm⟩, Function.update_self ..⟩)
      · exact .inl (Function.update_of_ne h ..)
    · by_cases h : u = v
      · subst h
        refine .inr (.inr ⟨fun w h => ?_, by simp [row]⟩)
        obtain rfl : watch = w := Option.some.inj (hw.symm.trans h)
        simpa using hterm
      · exact .inl (drop v h)
  · rename_i hw
    by_cases h : u = v
    · subst h
      exact .inr (.inr ⟨fun w h => absurd (hw.symm.trans h) (by simp), by simp [row]⟩)
    · exact .inl (drop v h)

/-- Two cleanup steps in a row are one. -/
theorem CleanupStep.trans {r₁ r₂ r₃ : Row} (h : CleanupStep r₁ r₂) (h' : CleanupStep r₂ r₃) :
    CleanupStep r₁ r₃ := by
  rcases h with rfl | ⟨hw, rfl⟩ | ⟨hw, rfl⟩
  · exact h'
  · rcases h' with rfl | ⟨⟨w, h, -⟩, -⟩ | ⟨-, rfl⟩
    · exact .inr (.inl ⟨hw, rfl⟩)
    · exact absurd h (by simp [Row.vacant])
    · exact .inr (.inl ⟨hw, rfl⟩)
  · rcases h' with rfl | ⟨⟨w, h, hne⟩, -⟩ | ⟨-, rfl⟩
    · exact .inr (.inr ⟨hw, rfl⟩)
    · exact absurd (hw w h) hne
    · exact .inr (.inr ⟨hw, rfl⟩)

/-- Bounded cleanup does one cleanup step to each watch. -/
theorem cleanupDue_step (m : Memory) (now : Time) (batchSize : ℕ) (v : String) :
    CleanupStep (m.row v) ((m.cleanupDue now batchSize).2.row v) := by
  have loop : ∀ (ids : List String) (acc : ℕ × Memory),
      CleanupStep (acc.2.row v) ((ids.foldl cleanupOne acc).2.row v) := by
    intro ids
    induction ids with
    | nil => exact fun acc => .inl rfl
    | cons u ids ih => exact fun acc => (cleanupOne_step acc u v).trans (ih _)
  exact loop _ (0, m)

end Memory

end Dibs
