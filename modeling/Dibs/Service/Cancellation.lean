import Dibs.Service.System

/-!
# Recorded cancellations

A cancellation that reaches the store while a booking is in flight is recorded in the sidecar and
answered with `NOT_ELIGIBLE`; the delivery that is booking is to resolve it. Every commit is computed
from the sidecar its claim was issued on, and the successor sidecars of `_commit_miss` and
`_commit_outage` say `cancel_requested=False`. So a recorded cancellation survives exactly as long as
no delivery commits a successor over it (`Forgets`): one that has not read the flag, or read it
before the cancellation came. The provider sequence reads it only after `book_slot` has refused every
slot or the provider has said that there is no booking.
-/

namespace Dibs

namespace Store

/-- `cancel_if_active` has answered `NOT_ELIGIBLE` for a watch. -/
def Pending (s : Store) (u : String) : Prop :=
  ∃ e ∈ s.log, e.op = .cancel u ∧ ∃ w, e.reply = .transition (.notEligible w)

/-- The sidecar of a watch says that its cancellation was requested. -/
def Flagged (s : Store) (u : String) : Prop :=
  (s.row u).runtime.any WatchRuntime.cancelRequested = true

/-- A watch that is still active has its cancellation recorded. -/
def Remembers (s : Store) (u : String) : Prop :=
  ∀ w, (s.row u).watch = some w → w.status = .active → s.Flagged u

end Store

/-- No plan of the service carries the recorded cancellation on. -/
theorem Built.not_cancelRequested {svc : WatchService} {claim : WindowClaim} {plan : Plan}
    (h : Built svc claim plan) : plan.runtime.cancelRequested = false := by
  rcases h.cases with hs | hf
  · obtain ⟨due, outages, -, hrt⟩ := hs.scheduled
    rw [hrt]
    rfl
  · rw [hf.runtime]
    rfl

/-- Only a cancellation during a booking records one. -/
theorem Effect.flagged {d : Duration} {now : Time} {r r' : Row} {op : Op} {reply : Reply} {u : String}
    (he : Effect d now r op reply r') (hco : r.Coherent u) (ht : op.target = u) (hserved : op.Served)
    (h : r'.runtime.any WatchRuntime.cancelRequested = true) :
    r.runtime.any WatchRuntime.cancelRequested = true ∨
      (op = .cancel u ∧ ∃ w, reply = .transition (.notEligible w)) := by
  cases he with
  | create =>
    obtain ⟨-, -, _, _, _, rfl⟩ := hserved
    simp [initialRuntime] at h
  | claim | release | claimDispatch | markDispatched | releaseDispatch => exact .inl h
  | begin _ hruntime => exact .inl (by simpa [hruntime] using h)
  | reschedule | finish =>
    obtain ⟨svc, plan, hbuilt, -, rfl⟩ := hserved
    simp [Row.reschedule, Row.finish, hbuilt.not_cancelRequested] at h
  | pend =>
    obtain rfl : _ = u := ht
    exact .inr ⟨rfl, _, rfl⟩
  | cancel | expire =>
    cases hruntime : r.runtime <;> simp [Row.finish, hruntime, WatchRuntime.finished] at h
  | synthesize hwatch hactive hmarker =>
    -- An active watch has its marker.
    obtain ⟨rt, due, hs⟩ := hco.active _ hwatch hactive
    exact absurd (hmarker.symm.trans hs.marker) (by simp)

/-- A recorded cancellation stays in the sidecar of an active watch, unless its owner commits a
successor. -/
theorem Effect.remembers {d : Duration} {now : Time} {r r' : Row} {op : Op} {reply : Reply}
    {u : String} (he : Effect d now r op reply r') (hco : r.Coherent u)
    (hthere : r.watch ≠ none)
    (hflag : ∀ w, r.watch = some w → w.status = .active →
      r.runtime.any WatchRuntime.cancelRequested = true)
    (hno : ∀ c nw nr, op = .commit c nw nr → r.Owns now c → nw.status = .active →
      r.runtime.any WatchRuntime.cancelRequested = false)
    {w : Watch} (hw : r'.watch = some w) (ha : w.status = .active) :
    r'.runtime.any WatchRuntime.cancelRequested = true := by
  cases he with
  | create hnone => exact absurd hnone hthere
  | claim | release | claimDispatch | markDispatched | releaseDispatch => exact hflag w hw ha
  | begin _ hruntime =>
    have hold := hflag w hw ha
    rw [hruntime] at hold
    exact hold
  | reschedule hwatch _ hactive _ howns hnew =>
    have hold := hflag _ hwatch hactive
    rw [hno _ _ _ rfl howns hnew] at hold
    contradiction
  | finish _ _ _ _ _ hnew =>
    obtain rfl := Option.some.inj hw
    exact absurd ha hnew
  | pend => rfl
  | cancel | expire =>
    obtain rfl := Option.some.inj hw
    contradiction
  | synthesize hwatch hactive hmarker =>
    obtain ⟨rt, due, hs⟩ := hco.active _ hwatch hactive
    exact absurd (hmarker.symm.trans hs.marker) (by simp)

namespace Store

/-- A cancellation is pending after a call because it was before, or because the call recorded it. -/
theorem pending_call {s : Store} {op : Op} {u : String} : (s.call op).Pending u ↔
    (op = .cancel u ∧ ∃ w, s.reply op = .transition (.notEligible w)) ∨ s.Pending u := by
  simp only [Pending, call_log, List.mem_cons, exists_eq_or_imp]

/-- A watch with a pending cancellation was created. -/
theorem Pending.created {s : Store} (h : (storeMachine Served).Reach s) {u : String}
    (hp : s.Pending u) : u ∈ s.created := by
  refine h.invariant (P := fun s => s.Pending u → u ∈ s.created) ?_ ?_ hp
  · rintro s ⟨-, -, hlog⟩ ⟨e, he, -⟩
    simp [hlog] at he
  · intro s label hr ih ha hp
    cases label with
    | tick now => exact ih hp
    | call op =>
      rcases pending_call.mp hp with ⟨rfl, w, hreply⟩ | hold
      · -- The watch was there.
        have hk := keyed (lawful_of_served hr) u
        refine created_call _ (hk.created fun hnone => ?_)
        have hget : s.mem.watches.get? u = none := hnone
        simp [reply, Memory.call, Memory.cancelIfActive, hget] at hreply
      · exact created_call op (ih hold)

/-- A sidecar that says so belongs to a watch with a pending cancellation. -/
theorem Flagged.pending {s : Store} (h : (storeMachine Served).Reach s) {u : String}
    (hf : s.Flagged u) : s.Pending u := by
  refine h.invariant (P := fun s => s.Flagged u → s.Pending u) ?_ ?_ hf
  · rintro s ⟨d, hmem, -⟩ hf
    simp [Flagged, row, hmem, Memory.row_empty, Row.vacant] at hf
  · intro s label hr ih ha hf
    cases label with
    | tick now => exact ih hf
    | call op =>
      change (s.call op).Pending u
      rw [pending_call]
      change ((s.call op).row u).runtime.any _ = true at hf
      rcases s.row_call op u with ⟨ht, he⟩ | ⟨hrow, -⟩ | ⟨-, hcl⟩
      · rcases he.flagged (coherent hr u) ht ha.2 hf with hold | hnew
        · exact .inr (ih hold)
        · exact .inl hnew
      · rw [hrow] at hf
        exact .inr (ih hf)
      · rcases hcl with hcl | ⟨-, hcl⟩ | ⟨-, hcl⟩ <;> rw [hcl] at hf
        · exact .inr (ih hf)
        · simp [Row.vacant] at hf
        · exact .inr (ih hf)

/-- A pending cancellation stays in the sidecar over a call that is not its owner's commit of a
successor. -/
theorem Remembers.call {s : Store} (hr : (storeMachine Served).Reach s) {op : Op} (ho : Served s op)
    {u : String} (hp : (s.call op).Pending u) (h : s.Pending u → s.Remembers u)
    (hno : ∀ c nw nr, op = .commit c nw nr → c.watch.watchId = u → (s.row u).Owns s.now c →
      nw.status = .active → ¬ s.Flagged u) : (s.call op).Remembers u := by
  intro w hw ha
  change ((s.call op).row u).runtime.any _ = true
  rcases pending_call.mp hp with ⟨rfl, w₀, hreply⟩ | hold
  · rcases s.row_call (.cancel u) u with ⟨-, he⟩ | ⟨-, hn⟩ | ⟨⟨_, _, hop⟩, -⟩
    · rw [hreply] at he
      generalize (s.call (.cancel u)).row u = r' at he hw ⊢
      cases he with
      | pend => rfl
    · exact absurd hreply ((hn rfl).2 rfl w₀)
    · contradiction
  · have hcreated := hold.created hr
    rcases s.row_call op u with ⟨ht, he⟩ | ⟨hrow, -⟩ | ⟨-, hcl⟩
    · by_cases hthere : (s.row u).watch = none
      · -- The id is taken, so no new watch is stored under it.
        rcases inactive_call ho.1 hcreated (by simp [hthere]) with hwatch | ⟨hwatch, -⟩ <;>
          rw [hwatch] at hw
        · exact absurd (hthere.symm.trans hw) (by simp)
        · contradiction
      · refine he.remembers (coherent hr u) hthere (h hold) ?_ hw ha
        rintro c nw nr rfl howns hnew
        simpa [Flagged] using hno c nw nr rfl ht howns hnew
    · rw [hrow] at hw ⊢
      exact h hold w hw ha
    · rcases hcl with hcl | ⟨-, hcl⟩ | ⟨-, hcl⟩ <;> rw [hcl] at hw ⊢
      · exact h hold w hw ha
      · contradiction
      · exact h hold w hw ha

/-- The commit of a successor leaves its watch active, without the recorded cancellation. -/
theorem not_remembers_of_commit {s : Store} (hr : (storeMachine Lawful).Reach s) {c : WindowClaim}
    (hc : c ∈ s.issued) (howns : (s.row c.watch.watchId).Owns s.now c) {nw : Watch}
    (hnew : nw.status = .active) {nr : WatchRuntime} (hnr : nr.cancelRequested = false) :
    ¬ (s.call (.commit c nw nr)).Remembers c.watch.watchId := by
  obtain ⟨r, hrow, he⟩ := effect_of_applied (commit_applied hr hc howns nw nr)
  generalize s.reply (.commit c nw nr) = reply at he
  intro hrem
  change (s.call (.commit c nw nr)).row c.watch.watchId = r at hrow
  cases he with
  | reschedule =>
    have hflag := hrem nw (by rw [hrow]; rfl) hnew
    rw [Flagged, hrow] at hflag
    simp [Row.reschedule, hnr] at hflag
  | finish _ _ _ _ _ hne => exact hne hnew

end Store

namespace Sys

variable {svc : WatchService}

/-- Every recorded cancellation is remembered: its watch is terminal or removed, or still has
`cancel_requested` in its sidecar. -/
def Remembers (s : Sys) : Prop := ∀ u, s.store.Pending u → s.store.Remembers u

/-- A delivery that still owns its watch commits a successor window, of a miss or an outage, while the
cancellation of the watch is recorded. -/
def Forgets (s : Sys) (label : SysLabel) : Prop :=
  ∃ i input offset c verdict plan, label = .resume i input offset ∧
    s.tasks i = .committing c verdict plan ∧ plan.watch.status = .active ∧
    (s.store.row c.watch.watchId).Owns s.store.now c ∧ s.store.Flagged c.watch.watchId

/-- A step that forgets no cancellation keeps all of them. -/
theorem Remembers.exec {s : Sys} (hr : (sysMachine svc).Reach s) {label : SysLabel}
    (ha : (sysMachine svc).allowed s label) (hgood : ¬ s.Forgets label) (h : s.Remembers) :
    ((sysMachine svc).exec label s).Remembers := by
  intro u hp
  rcases exec_store svc s label with he | ⟨now, -, he⟩ <;> rw [he] at hp ⊢
  · cases hop : s.op label with
    | none =>
      rw [hop] at hp
      exact h u hp
    | some op =>
      rw [hop] at hp
      refine Store.Remembers.call (reach_store hr) (served_op (wf_and_store hr).1 ha hop) hp (h u) ?_
      rintro c nw nr rfl rfl howns hnew hflag
      obtain ⟨i, input, offset, verdict, plan, hlabel, htask, rfl, -⟩ := commit_of_op ha hop
      exact hgood ⟨i, input, offset, c, verdict, plan, hlabel, htask, hnew, howns, hflag⟩
  · exact h u hp

/-- A step that forgets a cancellation leaves its watch in plain monitoring. -/
theorem Forgets.not_remembers {s : Sys} (hr : (sysMachine svc).Reach s) {label : SysLabel}
    (h : s.Forgets label) : ¬ ((sysMachine svc).exec label s).Remembers := by
  obtain ⟨i, input, offset, c, verdict, plan, rfl, htask, hactive, howns, hflag⟩ := h
  obtain ⟨hwf, hstore⟩ := wf_and_store hr
  obtain ⟨hc, now, offset', hplan⟩ : c ∈ s.store.issued ∧
      ∃ now offset, plan = verdict.plan svc c now offset := by simpa [htask, Task.Wf] using hwf i
  have hbuilt : Built svc c plan := ⟨verdict, now, offset', hplan⟩
  intro hrem
  refine Store.not_remembers_of_commit (Store.lawful_of_served hstore) hc howns hactive
    hbuilt.not_cancelRequested ?_
  have := hrem c.watch.watchId
  rw [store_of_op (op_committing htask input offset)] at this
  exact this (Store.pending_call.mpr (.inr (hflag.pending hstore)))

/-- Recorded cancellations are remembered exactly as long as no step forgets one. -/
theorem remembers_exactlyWhen :
    (sysMachine svc).ExactlyWhen Remembers fun s label => ¬ s.Forgets label where
  holds s hs := by
    refine hs.invariant ?_ fun s label hr h ha => ?_
    · rintro s ⟨⟨retention, -, hlog⟩, -⟩ u ⟨e, he, -⟩
      simp [hlog] at he
    · exact h.exec hr.of_restrict ha.1 ha.2
  breaks s label hs _ hbad := (not_not.mp hbad).not_remembers hs.of_restrict

/-- Recorded cancellations are remembered in every state of a run if and only if no step of it commits
a successor window, for a claim that still owns the watch, while a cancellation is recorded. -/
theorem cancellations_remembered_iff {s : Sys} (hs : (sysMachine svc).init s) {labels : List SysLabel}
    (hr : (sysMachine svc).Runs s labels) :
    (sysMachine svc).Always Remembers s labels ↔
      (sysMachine svc).EachStep (fun s label => ¬ s.Forgets label) s labels :=
  remembers_exactlyWhen.always_iff hs hr

/-- A run in which the watch is cancelled during `book_slot`, the provider does not answer in time, and
the delivery commits the outage. -/
def overdueRun : List SysLabel :=
  permitRun ++ [.start 2 (.cancelling "w"), .resume 2 .proceed 0, .resume 1 (.failed .timeout) 0,
    .resume 1 .proceed 0]

/-- The service after the run `overdueRun`. -/
def overdueSys : Sys := (sysMachine .sample).final fresh overdueRun

theorem overdueRun_runs : (sysMachine .sample).Runs fresh overdueRun := by decide +kernel

/-- After the run `overdueRun` the watch is monitored again and its cancellation is forgotten. -/
theorem overdueSys_not_remembers : ¬ overdueSys.Remembers := by
  intro h
  have hpending : overdueSys.store.Pending "w" :=
    ⟨⟨0, .cancel "w", .transition (.notEligible (Watch.sample "w" true 1000000000 5))⟩,
      by decide +kernel, rfl, _, rfl⟩
  have hactive : ((overdueSys.store.row "w").watch.map Watch.status) = some .active := by decide +kernel
  obtain ⟨w, hw, ha⟩ := Option.map_eq_some_iff.mp hactive
  have hflag : overdueSys.store.Flagged "w" := h "w" hpending w hw ha
  exact absurd hflag (by unfold Store.Flagged; decide +kernel)

/-- A pending cancellation can be lost. -/
theorem cancellation_forgotten : ¬ ∀ s, (sysMachine .sample).Reach s → s.Remembers :=
  fun h => overdueSys_not_remembers (h overdueSys (fresh_reach.final overdueRun_runs))

/-- In the run `overdueRun` a step forgets the cancellation. -/
theorem cancellations_remembered_iff_overdue :
    ¬ (sysMachine .sample).EachStep (fun s label => ¬ s.Forgets label) fresh overdueRun := fun h =>
  overdueSys_not_remembers
    ((cancellations_remembered_iff fresh_init overdueRun_runs).mpr h).final

end Sys

end Dibs
