import Dibs.Service.System

/-!
# The ends of a watch

A watch ends by a cancellation, by an expiry, or by the commit of a delivery that owns it.
`Sys.ends_exec` says which of them a step of the service was, and `Store.cancel_row`,
`Store.expire_row` and `Store.commit_ends` that each of them does end the watch.
-/

namespace Dibs

/-- Every plan keeps the watch's `auto_book`. -/
theorem Verdict.plan_autoBook (svc : WatchService) (c : WindowClaim) (now : Time) (offset : ℚ)
    (verdict : Verdict) : (verdict.plan svc c now offset).watch.autoBook = c.watch.autoBook := by
  cases verdict with
  | miss =>
    simp only [plan, commitMiss]
    split_ifs <;> rfl
  | outage error =>
    simp only [plan, commitOutage]
    split <;> rfl
  | booked confirmation attempted => cases attempted <;> rfl
  | exhausted | found | cancelled => rfl

/-- Only a booking makes a booked watch, which carries the confirmation. -/
theorem Verdict.plan_booked {svc : WatchService} {c : WindowClaim} {now : Time} {offset : ℚ}
    {verdict : Verdict} (hactive : c.watch.status = .active)
    (h : (verdict.plan svc c now offset).watch.status = .booked) :
    ∃ confirmation attempted, verdict = .booked confirmation attempted ∧
      (verdict.plan svc c now offset).watch.booking = some confirmation := by
  cases verdict with
  | booked confirmation attempted => exact ⟨confirmation, attempted, rfl, by cases attempted <;> rfl⟩
  | miss =>
    rcases commitMiss_cases svc c now none offset with hs | ⟨-, hs⟩
    · exact absurd (hs.status.symm.trans h) (by simp [hactive])
    · exact absurd (hs.symm.trans h) (by simp)
  | outage error =>
    rcases commitOutage_cases svc c now error offset with hs | ⟨-, hs⟩
    · exact absurd (hs.status.symm.trans h) (by simp [hactive])
    · exact absurd (hs.symm.trans h) (by simp)
  | exhausted | found | cancelled => contradiction

/-- The calls that end a watch. -/
theorem Effect.ends {d : Duration} {now : Time} {r r' : Row} {op : Op} {reply : Reply} {u : String}
    (he : Effect d now r op reply r') (ht : op.target = u) (hserved : op.Served) {w : Watch}
    (hw : r'.watch = some w) (hne : w.status ≠ .active) :
    r.watch = some w ∨
    (∃ w₀, op = .cancel u ∧ r.watch = some w₀ ∧ w₀.status = .active ∧
      (∀ rt, r.runtime = some rt → rt.phase ≠ some .booking) ∧ w = w₀.ended .cancelled now) ∨
    (∃ w₀ expected force, op = .expire u expected force ∧ r.watch = some w₀ ∧ w₀.status = .active ∧
      (force = false → w₀.isExhausted now = true) ∧ w = w₀.ended .expired now) ∨
    ∃ c nr, op = .commit c w nr ∧ c.watch.watchId = u ∧ r.Owns now c := by
  cases he with
  | create =>
    obtain rfl := Option.some.inj hw
    exact absurd hserved.1 hne
  | reschedule _ _ _ _ _ hnew =>
    obtain rfl := Option.some.inj hw
    exact absurd hnew hne
  | finish _ _ _ _ howns =>
    obtain rfl := Option.some.inj hw
    exact .inr (.inr (.inr ⟨_, _, rfl, ht, howns⟩))
  | cancel hwatch hactive hphase =>
    obtain rfl := Option.some.inj hw
    obtain rfl : _ = u := ht
    exact .inr (.inl ⟨_, rfl, hwatch, hactive, hphase, rfl⟩)
  | expire hwatch hactive hdue =>
    obtain rfl := Option.some.inj hw
    obtain rfl : _ = u := ht
    exact .inr (.inr (.inl ⟨_, _, _, rfl, hwatch, hactive, hdue, rfl⟩))
  | _ => exact .inl hw

namespace Store

/-- `cancel_if_active` ends an active watch that is in no booking phase. -/
theorem cancel_row {s : Store} {u : String} {w : Watch} (hw : (s.row u).watch = some w)
    (hactive : w.status = .active)
    (hphase : ∀ rt, (s.row u).runtime = some rt → rt.phase ≠ some .booking) :
    ((s.call (.cancel u)).row u).watch = some (w.ended .cancelled s.now) := by
  have happ : (s.reply (.cancel u)).isApplied = true := by
    have hget : s.mem.watches.get? u = some w := hw
    have hnone : (s.mem.runtimes.get? u).filter (fun rt => rt.phase = some .booking) = none := by
      rw [Option.filter_eq_none_iff]
      exact fun rt hrt => by simpa using hphase rt hrt
    simp only [reply, Memory.call, Memory.cancelIfActive, hget, hnone]
    simp [hactive, Reply.isApplied]
  obtain ⟨r, hrow, he⟩ := effect_of_applied happ
  change (s.call (.cancel u)).row u = r at hrow
  rw [hrow]
  generalize s.reply (.cancel u) = reply at he happ
  cases he with
  | pend => contradiction
  | cancel hwatch =>
    obtain rfl := Option.some.inj (hwatch.symm.trans hw)
    rfl

/-- `expire_if_eligible` ends an active watch whose time or attempts are over. -/
theorem expire_row {s : Store} {u : String} {w : Watch} (hw : (s.row u).watch = some w)
    (hactive : w.status = .active) (hdue : w.isExhausted s.now = true) :
    ((s.call (.expire u none false)).row u).watch = some (w.ended .expired s.now) := by
  have happ : (s.reply (.expire u none false)).isApplied = true := by
    have hget : s.mem.watches.get? u = some w := hw
    simp only [reply, Memory.call, Memory.expireIfEligible, hget]
    simp [hactive, hdue, Reply.isApplied]
  obtain ⟨r, hrow, he⟩ := effect_of_applied happ
  change (s.call (.expire u none false)).row u = r at hrow
  rw [hrow]
  generalize s.reply (.expire u none false) = reply at he
  cases he with
  | expire hwatch =>
    obtain rfl := Option.some.inj (hwatch.symm.trans hw)
    rfl

/-- `commit_window` ends the watch of its owner, when the plan does. -/
theorem commit_ends {s : Store} (hr : (storeMachine Lawful).Reach s) {c : WindowClaim}
    (hc : c ∈ s.issued) (howns : (s.row c.watch.watchId).Owns s.now c) {nw : Watch}
    (hnew : nw.status ≠ .active) (nr : WatchRuntime) :
    ((s.call (.commit c nw nr)).row c.watch.watchId).watch = some nw := by
  obtain ⟨r, hrow, he⟩ := effect_of_applied (commit_applied hr hc howns nw nr)
  change (s.call (.commit c nw nr)).row c.watch.watchId = r at hrow
  rw [hrow]
  generalize s.reply (.commit c nw nr) = reply at he
  cases he with
  | reschedule _ _ _ _ _ hactive => exact absurd hactive hnew
  | finish => rfl

end Store

namespace Sys

variable {svc : WatchService}

/-- What a step of the service does to a watch that it leaves ended: nothing, or it ends the watch by a
cancellation, an expiry or the commit of a delivery that owns it. -/
theorem ends_exec {s : Sys} (hr : (sysMachine svc).Reach s) {label : SysLabel}
    (ha : (sysMachine svc).allowed s label) {u : String} {w : Watch}
    (hw : (((sysMachine svc).exec label s).store.row u).watch = some w) (hne : w.status ≠ .active) :
    (s.store.row u).watch = some w ∨
    (∃ w₀, s.op label = some (.cancel u) ∧ (s.store.row u).watch = some w₀ ∧ w₀.status = .active ∧
      (∀ rt, (s.store.row u).runtime = some rt → rt.phase ≠ some .booking) ∧
      w = w₀.ended .cancelled s.store.now) ∨
    (∃ w₀, s.op label = some (.expire u none false) ∧ (s.store.row u).watch = some w₀ ∧
      w₀.status = .active ∧ w₀.isExhausted s.store.now = true ∧ w = w₀.ended .expired s.store.now) ∨
    ∃ i input offset c verdict plan now offset', label = .resume i input offset ∧
      s.tasks i = .committing c verdict plan ∧ plan = verdict.plan svc c now offset' ∧
      c.watch.watchId = u ∧ (s.store.row u).Owns s.store.now c ∧ w = plan.watch ∧
      (s.store.row u).watch = some c.watch ∧ c.watch.status = .active := by
  obtain ⟨hwf, hstore⟩ := wf_and_store hr
  rcases exec_store svc s label with he | ⟨now, -, he⟩ <;> rw [he] at hw
  · cases hop : s.op label with
    | none => exact .inl (by rw [hop] at hw; exact hw)
    | some op =>
      rw [hop] at hw
      change ((s.store.call op).row u).watch = some w at hw
      rcases s.store.row_call op u with ⟨ht, heff⟩ | ⟨hrow, -⟩ | ⟨-, hcl⟩
      · have hserved := served_op hwf ha hop
        rcases heff.ends ht hserved.2 hw hne with hold | ⟨w₀, rfl, hw₀, hactive, hphase, rfl⟩ |
          ⟨w₀, expected, force, rfl, hw₀, hactive, hdue, rfl⟩ | ⟨c, nr, rfl, rfl, howns⟩
        · exact .inl hold
        · exact .inr (.inl ⟨w₀, rfl, hw₀, hactive, hphase, rfl⟩)
        · obtain ⟨rfl, rfl⟩ := expire_of_op ha hop
          exact .inr (.inr (.inl ⟨w₀, rfl, hw₀, hactive, hdue rfl, rfl⟩))
        · obtain ⟨i, input, offset, verdict, plan, hlabel, htask, hplan, -⟩ := commit_of_op ha hop
          obtain ⟨hc, now, offset', hbuilt⟩ : c ∈ s.store.issued ∧
              ∃ now offset, plan = verdict.plan svc c now offset := by
            simpa [htask, Task.Wf] using hwf i
          have hl := Store.lawful_of_served hstore
          exact .inr (.inr (.inr ⟨i, input, offset, c, verdict, plan, now, offset', hlabel, htask,
            hbuilt, rfl, howns, hplan, (Store.owned_current hl hc howns).1,
            Store.issued_active hl c hc⟩))
      · rw [hrow] at hw
        exact .inl hw
      · rcases hcl with hcl | ⟨-, hcl⟩ | ⟨-, hcl⟩ <;> rw [hcl] at hw
        · exact .inl hw
        · contradiction
        · exact .inl hw
  · exact .inl hw

end Sys

end Dibs
