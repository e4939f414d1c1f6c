import Dibs.Service.Plan
import Dibs.Store.Windows

/-!
# The tables of the store stay in step

The in-memory store under the calls the watch service makes: watches are created active with their
first check due and the initial sidecar, and every commit is one of the plans of `Plan.lean`; all
other calls are arbitrary. `Row.Coherent` says how documents, sidecars, markers, claims, dispatch
leases and retention deadlines then fit together for every watch, and `claimable` what it is for: a
due window that nobody holds can always be claimed, so no watch gets stuck.
-/

namespace Dibs

/-- Calls as the watch service makes them. -/
def Op.Served : Op → Prop
  | .create watch runtime => watch.status = .active ∧ watch.nextCheckAt ≠ none ∧
      ∃ requiredAttempts supportsDeadline phase,
        runtime = initialRuntime watch requiredAttempts supportsDeadline phase
  | .commit c nw nr => ∃ svc plan, Built svc c plan ∧ nw = plan.watch ∧ nr = plan.runtime
  | _ => True

/-- Lawful calls as the watch service makes them. -/
def Served (s : Store) (op : Op) : Prop := Lawful s op ∧ op.Served

/-- Served calls of every method but the retention cleanup. -/
def ServedRetained (s : Store) (op : Op) : Prop := Retained s op ∧ op.Served

/-- An active watch is on a scheduled window that its marker shows, and has no retention deadline. -/
structure Row.Scheduled (u : String) (r : Row) (rt : WatchRuntime) (due : Time) : Prop where
  /-- The sidecar. -/
  runtime : r.runtime = some rt
  /-- The window is the one of the cadence number. -/
  windowId : rt.windowId = some (windowIdFor u rt.cadenceSequence)
  /-- The window has a due time. -/
  scheduledFor : rt.scheduledFor = some due
  /-- The marker is exactly the window and its due time. -/
  marker : r.marker = some ⟨u, windowIdFor u rt.cadenceSequence, due⟩
  /-- No retention deadline is recorded in the sidecar. -/
  terminalDeleteAt : rt.terminalDeleteAt = none
  /-- No retention deadline is in the cleanup index. -/
  deadline : r.deadline = none

/-- A terminal watch has nothing scheduled and nobody at work, and one retention deadline. -/
structure Row.Finished (r : Row) (rt : WatchRuntime) (deadline : Time) : Prop where
  /-- The sidecar. -/
  runtime : r.runtime = some rt
  /-- There is no window. -/
  windowId : rt.windowId = none
  /-- There is no due time. -/
  scheduledFor : rt.scheduledFor = none
  /-- No booking is in flight. -/
  phase : rt.phase = none
  /-- There is no marker. -/
  marker : r.marker = none
  /-- There is no claim. -/
  claim : r.claim = none
  /-- There is no dispatch lease. -/
  dispatchLease : r.dispatchLease = none
  /-- The deadline is recorded in the sidecar. -/
  terminalDeleteAt : rt.terminalDeleteAt = some deadline
  /-- The deadline in the cleanup index is the same. -/
  deadline : r.deadline = some deadline

/-- The tables of a watch are in step. -/
structure Row.Coherent (u : String) (r : Row) : Prop where
  /-- An active watch is scheduled. -/
  active : ∀ w, r.watch = some w → w.status = .active → ∃ rt due, r.Scheduled u rt due
  /-- Any other watch is finished. -/
  terminal : ∀ w, r.watch = some w → w.status ≠ .active → ∃ rt deadline, r.Finished rt deadline

/-- A finished row has no active watch. -/
theorem Row.Coherent.active_of_finished {u : String} {r : Row} {w : Watch} {rt : WatchRuntime}
    {d : Time} (h : r.Coherent u) (hw : r.watch = some w) (hf : r.Finished rt d) :
    w.status ≠ .active := by
  intro ha
  obtain ⟨rt', due, hs⟩ := h.active w hw ha
  exact absurd (hf.marker.symm.trans hs.marker) (by simp)

/-- Only the claim and the dispatch lease of an active watch may change on their own. -/
theorem Row.Coherent.of_active {u : String} {r r' : Row} (h : r.Coherent u)
    (hwatch : r'.watch = r.watch) (hruntime : r'.runtime = r.runtime) (hmarker : r'.marker = r.marker)
    (hdeadline : r'.deadline = r.deadline)
    (hlease : ∀ rt d, r.Finished rt d → r'.claim = none ∧ r'.dispatchLease = none) :
    r'.Coherent u := by
  refine ⟨fun w hw ha => ?_, fun w hw hne => ?_⟩
  · obtain ⟨rt, due, hs⟩ := h.active w (hwatch ▸ hw) ha
    exact ⟨rt, due, hruntime ▸ hs.runtime, hs.windowId, hs.scheduledFor, hmarker ▸ hs.marker,
      hs.terminalDeleteAt, hdeadline ▸ hs.deadline⟩
  · obtain ⟨rt, d, hf⟩ := h.terminal w (hwatch ▸ hw) hne
    obtain ⟨hc, hl⟩ := hlease rt d hf
    exact ⟨rt, d, hruntime ▸ hf.runtime, hf.windowId, hf.scheduledFor, hf.phase,
      hmarker ▸ hf.marker, hc, hl, hf.terminalDeleteAt, hdeadline ▸ hf.deadline⟩

/-- Effects keep the tables of a watch in step, when watches are created and commits computed as the
service does. -/
theorem Row.Coherent.effect {d : Duration} {now : Time} {r r' : Row} {op : Op} {reply : Reply}
    {u : String} {n : ℕ} (hk : r.Keyed u n) (h : r.Coherent u) (he : Effect d now r op reply r')
    (ht : op.target = u) (hserved : op.Served)
    (hcurrent : ∀ c nw nr, op = .commit c nw nr → r.Owns now c →
      r.watch = some c.watch ∧ r.runtime.map WatchRuntime.base = some c.runtime.base) :
    r'.Coherent u := by
  have hended : ∀ (w : Watch), r.watch = some w → w.status = .active → ∀ status, status ≠ .active →
      (r.finish (w.ended status now) (r.runtime.map (·.finished (now + d))) (now + d)).Coherent u := by
    intro w hw ha status hs
    obtain ⟨rt, due, hrt⟩ := h.active w hw ha
    refine ⟨fun w' hw' ha' => ?_, fun w' hw' _ => ?_⟩
    · obtain rfl := Option.some.inj hw'
      exact absurd ha' hs
    · exact ⟨rt.finished (now + d), now + d, by simp [Row.finish, hrt.runtime], rfl, rfl, rfl, rfl, rfl,
        rfl, rfl, rfl⟩
  cases he with
  | @create watch runtime hnone =>
    obtain ⟨ha, hdue, m, b, p, rfl⟩ := hserved
    obtain ⟨due, hdue⟩ := Option.ne_none_iff_exists'.mp hdue
    have ht : watch.watchId = u := ht
    refine ⟨fun w hw _ => ?_, fun w hw hne => ?_⟩
    · refine ⟨_, due, rfl, ?_, hdue, ?_, rfl, ?_⟩
      · simp [initialRuntime, ht]
      · simp [markerOf, initialRuntime, hdue, ht]
      · simp [hk.vacant hnone, Row.vacant]
    · obtain rfl := Option.some.inj hw
      exact absurd ha hne
  | claim hwatch _ hactive =>
    exact h.of_active rfl rfl rfl rfl fun rt d hf => absurd hactive (h.active_of_finished hwatch hf)
  | begin hwatch hruntime hactive | pend hwatch hruntime hactive =>
    obtain ⟨rt, due, hs⟩ := h.active _ hwatch hactive
    obtain rfl := Option.some.inj (hruntime.symm.trans hs.runtime)
    refine ⟨fun w _ _ => ⟨_, due, rfl, hs.windowId, hs.scheduledFor, hs.marker, hs.terminalDeleteAt,
      hs.deadline⟩, fun w hw hne => ?_⟩
    obtain rfl := Option.some.inj (hwatch.symm.trans hw)
    exact absurd hactive hne
  | @reschedule c nw nr watch runtime hwatch hruntime hactive _ howns hnew =>
    obtain ⟨svc, plan, hbuilt, rfl, rfl⟩ := hserved
    have hbase := (hcurrent c _ _ rfl howns).2
    have ht : c.watch.watchId = u := ht
    have hplan : plan.Succeeds c := hbuilt.cases.resolve_right fun hf => hf.status hnew
    obtain ⟨due, outages, -, hrt⟩ := hplan.scheduled
    obtain ⟨rt, due', hs⟩ := h.active _ hwatch hactive
    obtain rfl := Option.some.inj (hruntime.symm.trans hs.runtime)
    have hnone : c.runtime.terminalDeleteAt = none := by
      have hb : runtime.base = c.runtime.base := by simpa [hruntime] using hbase
      rw [← WatchRuntime.terminalDeleteAt_eq hb]
      exact hs.terminalDeleteAt
    refine ⟨fun w _ _ => ⟨_, due, rfl, ?_, ?_, ?_, ?_, hs.deadline⟩, fun w hw hne => ?_⟩
    · simp [hrt, successorRuntime, ht]
    · simp [hrt, successorRuntime]
    · simp [Row.reschedule, markerOf, hrt, successorRuntime, ht]
    · simp [hrt, successorRuntime, hnone]
    · obtain rfl := Option.some.inj hw
      exact absurd hnew hne
  | @finish c nw nr watch runtime hwatch hruntime hactive _ howns hnew =>
    obtain ⟨svc, plan, hbuilt, rfl, rfl⟩ := hserved
    have hca : c.watch.status = .active := by
      obtain rfl := Option.some.inj (hwatch.symm.trans (hcurrent c _ _ rfl howns).1)
      exact hactive
    have hplan : plan.Finishes c := hbuilt.cases.resolve_left fun hs => hnew (hs.status.trans hca)
    refine ⟨fun w hw ha => ?_, fun w hw _ => ?_⟩
    · obtain rfl := Option.some.inj hw
      exact absurd ha hnew
    · exact ⟨_, now + d, rfl, by simp [hplan.runtime, terminalRuntime],
        by simp [hplan.runtime, terminalRuntime], rfl, rfl, rfl, rfl, rfl, rfl⟩
  | cancel hwatch hactive => exact hended _ hwatch hactive _ (by simp)
  | expire hwatch hactive => exact hended _ hwatch hactive _ (by simp)
  | release => exact h.of_active rfl rfl rfl rfl fun rt d hf => ⟨rfl, hf.dispatchLease⟩
  | claimDispatch hwatch _ hactive =>
    exact h.of_active rfl rfl rfl rfl fun rt d hf => absurd hactive (h.active_of_finished hwatch hf)
  | markDispatched hheld =>
    exact h.of_active rfl rfl rfl rfl fun rt d hf => absurd (hheld.symm.trans hf.dispatchLease) (by simp)
  | releaseDispatch => exact h.of_active rfl rfl rfl rfl fun rt d hf => ⟨hf.claim, rfl⟩
  | synthesize hwatch hactive hmarker =>
    obtain ⟨rt, due, hs⟩ := h.active _ hwatch hactive
    exact absurd (hmarker.symm.trans hs.marker) (by simp)

/-- Cleanup keeps the tables of a watch in step. -/
theorem Row.Coherent.cleanup {u : String} {r r' : Row} (h : r.Coherent u)
    (hc : Memory.CleanupStep r r') : r'.Coherent u := by
  rcases hc with rfl | ⟨-, rfl⟩ | ⟨hw, rfl⟩
  · exact h
  · exact ⟨by simp [Row.vacant], by simp [Row.vacant]⟩
  · refine ⟨fun w hw' ha => ?_, fun w hw' hne => absurd (hw w hw') hne⟩
    obtain ⟨rt, due, hs⟩ := h.active w hw' ha
    exact ⟨rt, due, { hs with deadline := rfl }⟩

namespace Store

/-- What is reachable by served calls is reachable by lawful ones. -/
theorem lawful_of_served {s : Store} (h : (storeMachine Served).Reach s) :
    (storeMachine Lawful).Reach s :=
  reach_mono (fun _ _ _ ho => ho.1) h

/-- Under served calls the tables of every watch are in step. -/
theorem coherent {s : Store} (h : (storeMachine Served).Reach s) (u : String) :
    (s.row u).Coherent u := by
  refine row_invariant (P := fun u _ r => r.Coherent u) ?_ ?_ ?_ ?_ h u
  · exact fun u now => ⟨by simp [Row.vacant], by simp [Row.vacant]⟩
  · exact fun h _ => h
  · intro s op u r hr ho ht hco he
    have hl := lawful_of_served hr
    refine hco.effect (keyed hl u).row he ht ho.2 ?_
    rintro c nw nr rfl howns
    obtain rfl : c.watch.watchId = u := ht
    exact owned_current hl ho.1.1.1 howns
  · exact fun h hc => h.cleanup hc

/-- The commits that the service builds advance the cadence. -/
theorem advances {s : Store} (h : (storeMachine Served).Reach s) : ∀ e ∈ s.log, e.op.Advances := by
  refine h.invariant (P := fun s => ∀ e ∈ s.log, e.op.Advances) ?_ ?_
  · rintro s ⟨-, -, hl⟩ e he
    simp [hl] at he
  · intro s label hr ih ha
    cases label with
    | tick now => exact ih
    | call op =>
      refine List.forall_mem_cons.mpr ⟨?_, ih⟩
      cases op with
      | commit c nw nr =>
        obtain ⟨svc, plan, hbuilt, rfl, rfl⟩ := ha.2
        intro hactive
        rcases hbuilt.cases with hs | hf
        · obtain ⟨due, outages, -, hrt⟩ := hs.scheduled
          simp [hrt, successorRuntime]
        · exact absurd hactive hf.status
      | _ => trivial

/-- Claims are issued on the windows of their cadence numbers. -/
theorem served_named {s : Store} (h : (storeMachine Served).Reach s) :
    ∀ c ∈ s.issued, c.windowId = windowIdFor c.watch.watchId c.runtime.cadenceSequence := by
  refine h.invariant (P := fun s => ∀ c ∈ s.issued,
    c.windowId = windowIdFor c.watch.watchId c.runtime.cadenceSequence) ?_ ?_
  · rintro s ⟨-, -, hl⟩ c hc
    simp [issued, hl] at hc
  · intro s label hr ih ha c hc
    cases label with
    | tick now => exact ih c hc
    | call op =>
      rcases mem_issued_call hc with hnew | hold
      · obtain ⟨-, -, -, hwatch, hruntime, hactive, hwindow, -⟩ := owned_cases hnew
        have hid := (keyed (lawful_of_served hr) op.target).row.watchId _ hwatch
        obtain ⟨rt, due, hs⟩ := (coherent hr op.target).active _ hwatch hactive
        obtain rfl := Option.some.inj (hruntime.symm.trans hs.runtime)
        rw [hid]
        exact Option.some.inj (hwindow.symm.trans hs.windowId)
      · exact ih c hold

/-- No window is committed twice by the service. -/
theorem served_windows_nodup {s : Store} (h : (storeMachine Served).Reach s) :
    (s.committed.map WindowClaim.windowId).Nodup :=
  (committed_ordered (lawful_of_served h) (advances h)).windows_nodup (served_named h)

/-- Without cleanup, served calls are lawful served calls. -/
theorem served_of_retained {s : Store} (h : (storeMachine ServedRetained).Reach s) :
    (storeMachine Served).Reach s :=
  reach_mono (fun _ op hr ho =>
    ⟨retained_allowed (lawful_of_retained (reach_mono (fun _ _ _ ho => ho.1) hr)).2
      (i := .call op) ho.1, ho.2⟩) h

/-- Store coherence. Without cleanup and under the calls the watch service makes, in every reachable
state every active watch is on the scheduled window of its cadence number, with exactly its marker
and no retention deadline, and every terminal watch has no marker, claim, dispatch lease, window, due
time or phase, and one recorded retention deadline. So an active watch whose due time has passed and
that no unexpired claim holds grants its window to whoever claims it next. -/
theorem coherent_never_wedged {s : Store} (h : (storeMachine ServedRetained).Reach s) (u : String)
    (w : Watch) (hw : s.mem.watches.get? u = some w) :
    (w.status = .active → ∃ rt due, (s.row u).Scheduled u rt due ∧
      (due ≤ s.now → (∀ held, s.mem.claims.get? u = some held → held.expiresAt ≤ s.now) →
        ∀ owner lease ignoreSchedule, ∃ c, (s.mem.claimWindow s.now u
          (windowIdFor u rt.cadenceSequence) owner lease ignoreSchedule).1 = .owned c)) ∧
    (w.status ≠ .active → ∃ rt deadline, (s.row u).Finished rt deadline) := by
  have hco := coherent (served_of_retained h) u
  refine ⟨fun ha => ?_, fun hne => hco.terminal w hw hne⟩
  obtain ⟨rt, due, hs⟩ := hco.active w hw ha
  refine ⟨rt, due, hs, fun hdue hfree owner lease ignoreSchedule => ?_⟩
  exact Memory.claimWindow_owned hw hs.runtime ha hs.windowId
    (fun _ due' hd => Option.some.inj (hs.scheduledFor.symm.trans hd) ▸ hdue)
    fun held hh _ => hfree held hh

/-- The claim on the first window of a fresh watch. -/
def firstClaim : WindowClaim :=
  let watch := Watch.sample "w" true 1000000000 5
  ⟨watch, initialRuntime watch 5 true none, "a", "w:0", 1, 120000000⟩

/-- The plan of a first check that finds nothing. -/
def firstMiss : Plan := commitMiss .sample firstClaim 0 none 0

/-- A run in which the first check of a watch finds nothing, up to the due time of the second. -/
def missed : List StoreLabel :=
  [.call (.create firstClaim.watch firstClaim.runtime), .call (.claim "w" "w:0" "a" 120000000 false),
    .call (.commit firstClaim firstMiss.watch firstMiss.runtime), .tick 60000000]

/-- The store after the run `missed`. -/
def missedStore : Store := (storeMachine ServedRetained).final ⟨Memory.empty 60, 0, []⟩ missed

/-- After the run `missed` the second window can be claimed. -/
theorem coherent_never_wedged_missed :
    ∃ c, (missedStore.mem.claimWindow missedStore.now "w" "w:1" "b" 120000000 false).1 = .owned c := by
  have hrun : (storeMachine ServedRetained).Runs ⟨Memory.empty 60, 0, []⟩ missed :=
    ⟨⟨by decide +kernel, rfl, by simp [firstClaim, Watch.sample], 5, true, none, rfl⟩,
      ⟨by decide +kernel, trivial⟩,
      ⟨by decide +kernel, .sample, firstMiss, ⟨.miss, 0, 0, rfl⟩, rfl, rfl⟩, (by decide : (0 : ℤ) ≤ 60000000),
      trivial⟩
  have h0 : (storeMachine ServedRetained).Reach ⟨Memory.empty 60, 0, []⟩ := .init ⟨60, rfl, rfl⟩
  have hr : (storeMachine ServedRetained).Reach missedStore := h0.final hrun
  have hw : missedStore.mem.watches.get? "w" = some firstMiss.watch := by decide +kernel
  obtain ⟨rt, due, hs, hc⟩ :=
    (coherent_never_wedged hr "w" firstMiss.watch hw).1 (by decide +kernel)
  have hrt : (missedStore.row "w").runtime = some { firstMiss.runtime with revision := 1 } := by
    decide +kernel
  have hnow : firstMiss.runtime.scheduledFor = some missedStore.now := by decide +kernel
  have hfree : missedStore.mem.claims.get? "w" = none := by decide +kernel
  obtain rfl := Option.some.inj (hrt.symm.trans hs.runtime)
  have hdue : due = missedStore.now := Option.some.inj (hs.scheduledFor.symm.trans hnow)
  have hwin : windowIdFor "w" firstMiss.runtime.cadenceSequence = "w:1" := by decide +kernel
  rw [← hwin]
  exact hc hdue.le (fun held hh => absurd (hfree.symm.trans hh) (by simp)) "b" 120000000 false

end Store

end Dibs
