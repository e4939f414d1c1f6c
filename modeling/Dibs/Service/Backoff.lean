import Dibs.Service.Attempts
import Dibs.Service.Lifetime

/-!
# The backoff after outages

`_commit_outage` counts the outages in a row and waits for `interval * 2 ** (n - 1)`, capped. The counter
that it stores is capped too, one past the exponent at which the delay has reached the maximum, so it says
nothing about `n` from then on. `outageRun` counts without a cap, from the windows that a run has
committed; the stored counter is its saturation (`Sys.Tallied`), and saturating it changes no delay
(`outageBase_saturating`).
-/

namespace Dibs

/-- The outages of a watch in a row: those committed since its creation or its last committed miss, of
windows newest first. -/
def outageRun (u : String) : List CommittedWindow → ℕ
  | [] => 0
  | ⟨claim, verdict⟩ :: windows =>
    if claim.watch.watchId = u then
      match verdict with
      | .miss => 0
      | .outage _ => outageRun u windows + 1
      | _ => outageRun u windows
    else outageRun u windows

/-- The windows of other watches do not count. -/
theorem outageRun_cons_ne {u : String} {k : CommittedWindow} (h : k.claim.watch.watchId ≠ u)
    (l : List CommittedWindow) : outageRun u (k :: l) = outageRun u l := by
  obtain ⟨claim, verdict⟩ := k
  simp only [outageRun]
  exact if_neg h

/-- A watch without a committed window has had no outage. -/
theorem outageRun_eq_zero {u : String} {l : List CommittedWindow}
    (h : ∀ k ∈ l, k.claim.watch.watchId ≠ u) : outageRun u l = 0 := by
  induction l with
  | nil => rfl
  | cons k l ih =>
    rw [outageRun_cons_ne (h k List.mem_cons_self)]
    exact ih fun k' hk' => h k' (List.mem_cons_of_mem _ hk')

/-- The delay that `_outage_delay` starts from: `base`. -/
def outageBase (svc : WatchService) (outages : ℕ) : ℚ :=
  if exponentLimit svc.schedule.intervalSeconds svc.backoffMaxSeconds ≤ outages - 1 then
    svc.backoffMaxSeconds
  else svc.schedule.intervalSeconds * 2 ^ (outages - 1)

/-- `_outage_delay` jitters its base, floors and caps it, and clips it to what is left. -/
theorem outageDelay_eq (svc : WatchService) (outages : ℕ) (now : Time) (watch : Watch) (offset : ℚ) :
    outageDelay svc outages now watch offset =
      if totalSeconds (watch.expiresAt - now) < minDelaySeconds then none
      else some (min (min (max (outageBase svc outages + offset) minDelaySeconds) svc.backoffMaxSeconds)
        (totalSeconds (watch.expiresAt - now))) :=
  rfl

/-- The base of the `n + 1`st outage in a row is the capped exponential, although it is computed from the
saturated counter. -/
theorem outageBase_saturating (svc : WatchService) (n : ℕ) :
    outageBase svc (saturatingOutages svc (n + 1)) =
      min svc.backoffMaxSeconds (svc.schedule.intervalSeconds * 2 ^ n) := by
  obtain ⟨hreach, hbelow⟩ := @exponentLimit_spec _ svc.backoffMaxSeconds svc.schedule.interval_pos
  unfold outageBase saturatingOutages
  generalize exponentLimit svc.schedule.intervalSeconds svc.backoffMaxSeconds = limit at hreach hbelow ⊢
  have hpred : min (n + 1) (limit + 1) - 1 = min n limit := by omega
  rw [hpred]
  by_cases h : n < limit
  · rw [Nat.min_eq_left h.le, if_neg (Nat.not_le.mpr h), min_eq_right (hbelow n h).le]
  · -- From the limit on the exponential is past the maximum.
    have hle : limit ≤ n := Nat.not_lt.mp h
    have hpast : svc.backoffMaxSeconds ≤ svc.schedule.intervalSeconds * 2 ^ n :=
      calc svc.backoffMaxSeconds ≤ svc.schedule.intervalSeconds * 2 ^ limit := hreach
        _ ≤ svc.schedule.intervalSeconds * 2 ^ n :=
            mul_le_mul_of_nonneg_left (pow_le_pow_right₀ (by norm_num) hle) svc.schedule.interval_pos.le
    rw [Nat.min_eq_right hle, if_pos le_rfl, min_eq_left hpast]

/-- Counting on from a saturated counter saturates as counting on from the exact one. -/
theorem saturatingOutages_succ (svc : WatchService) (n : ℕ) :
    saturatingOutages svc (saturatingOutages svc n + 1) = saturatingOutages svc (n + 1) := by
  unfold saturatingOutages
  omega

/-- Rounds beyond the limit change nothing, so the loop of `_exponent_limit` has ended. -/
theorem exponentLimitFrom_eq {interval maximum : ℚ} (h : 0 < interval) {fuel : ℕ}
    (hfuel : exponentLimit interval maximum ≤ fuel) :
    exponentLimitFrom maximum fuel interval 0 = exponentLimit interval maximum := by
  obtain ⟨hreach, hbelow⟩ := @exponentLimit_spec _ maximum h
  have hrounds : maximum ≤ interval * 2 ^ fuel :=
    calc maximum ≤ interval * 2 ^ exponentLimit interval maximum := hreach
      _ ≤ interval * 2 ^ fuel :=
          mul_le_mul_of_nonneg_left (pow_le_pow_right₀ (by norm_num) hfuel) h.le
  obtain ⟨k, hk, hle, hlt⟩ := exponentLimitFrom_spec maximum fuel interval 0 hrounds
  rw [hk, Nat.zero_add]
  -- Both are the least number of doublings that reaches the maximum.
  rcases Nat.lt_trichotomy k (exponentLimit interval maximum) with hless | heq | hmore
  · exact absurd hle (not_le.mpr (hbelow k hless))
  · exact heq
  · exact absurd hreach (not_le.mpr (hlt _ hmore))

/-- A plan for the `n + 1`st outage in a row follows the capped exponential. -/
structure Plan.BacksOff (plan : Plan) (svc : WatchService) (claim : WindowClaim) (n : ℕ) (now : Time)
    (offset : ℚ) : Prop where
  /-- The watch is expired instead exactly when less than the floor is left. -/
  expired : plan.watch.status = .expired ↔
    totalSeconds (claim.watch.expiresAt - now) < minDelaySeconds
  /-- Otherwise the next window is due after the jittered delay, within its bounds. -/
  delayed : minDelaySeconds ≤ totalSeconds (claim.watch.expiresAt - now) →
    ∃ delay, plan.followup = .dispatch delay (now + timedelta delay) ∧
      plan.watch.nextCheckAt = some (now + timedelta delay) ∧
      delay = min (min (max (min svc.backoffMaxSeconds (svc.schedule.intervalSeconds * 2 ^ n) + offset)
        minDelaySeconds) svc.backoffMaxSeconds) (totalSeconds (claim.watch.expiresAt - now)) ∧
      minDelaySeconds ≤ delay ∧ delay ≤ svc.backoffMaxSeconds ∧
      delay ≤ totalSeconds (claim.watch.expiresAt - now)
  /-- The counter that is stored is the saturated one, and it is back at zero when the watch ends. -/
  counter : plan.runtime.consecutiveOutages =
    if plan.watch.status = .expired then 0 else saturatingOutages svc (n + 1)

/-- `_commit_outage` on a claim whose counter is the saturation of `n` backs off for the `n + 1`st
outage. -/
theorem commitOutage_backsOff {svc : WatchService} (hcap : minDelaySeconds ≤ svc.backoffMaxSeconds)
    {claim : WindowClaim} (hactive : claim.watch.status = .active) {n : ℕ}
    (hcounter : claim.runtime.consecutiveOutages = saturatingOutages svc n) (now : Time) (error : String)
    (offset : ℚ) : (commitOutage svc claim now error offset).BacksOff svc claim n now offset := by
  have hdelay := outageDelay_eq svc (saturatingOutages svc (claim.runtime.consecutiveOutages + 1)) now
    claim.watch offset
  rw [hcounter, saturatingOutages_succ, outageBase_saturating] at hdelay
  unfold commitOutage
  dsimp only
  rw [hcounter, saturatingOutages_succ]
  by_cases hleft : totalSeconds (claim.watch.expiresAt - now) < minDelaySeconds
  · rw [if_pos hleft] at hdelay
    rw [hdelay]
    refine ⟨?_, fun h => absurd hleft (not_lt.mpr h), ?_⟩
    · simp [commitTerminal, hleft]
    · simp [commitTerminal, terminalRuntime]
  · rw [if_neg hleft] at hdelay
    rw [hdelay]
    have hfloor := not_lt.mp hleft
    have hstatus : claim.watch.status ≠ .expired := by simp [hactive]
    refine ⟨?_, fun _ => ⟨_, rfl, rfl, rfl, ?_, ?_, ?_⟩, ?_⟩
    · simp [hstatus, hleft]
    · exact le_min (le_min (le_max_right ..) hcap) hfloor
    · exact (min_le_left ..).trans (min_le_right ..)
    · exact min_le_right ..
    · simp [hstatus, successorRuntime]

/-- Only a miss and an outage leave the watch active, and what they store is counted on from the claim. -/
theorem Verdict.plan_counter {svc : WatchService} (claim : WindowClaim) (now : Time) (offset : ℚ)
    (verdict : Verdict) (hactive : (verdict.plan svc claim now offset).watch.status = .active) {n : ℕ}
    {windows : List CommittedWindow} (hn : outageRun claim.watch.watchId windows = n)
    (hcounter : claim.runtime.consecutiveOutages = saturatingOutages svc n) :
    (verdict.plan svc claim now offset).runtime.consecutiveOutages =
      saturatingOutages svc (outageRun claim.watch.watchId (⟨claim, verdict⟩ :: windows)) := by
  cases verdict with
  | miss =>
    simp only [plan, commitMiss] at hactive ⊢
    split_ifs at hactive ⊢ with hover
    · simp [commitTerminal] at hactive
    · simp [outageRun, successorRuntime, saturatingOutages]
  | outage error =>
    have hrun : outageRun claim.watch.watchId (⟨claim, .outage error⟩ :: windows) = n + 1 := by
      simp [outageRun, hn]
    rw [hrun]
    simp only [plan, commitOutage] at hactive ⊢
    split at hactive
    · simp [commitTerminal] at hactive
    · simp only [successorRuntime, hcounter, saturatingOutages_succ]
  | exhausted | found | booked | cancelled =>
    simp [plan, commitTerminal, foundWatch, cancelledWatch] at hactive

/-- The outage counter of an active watch. -/
def Row.outages (r : Row) : Option ℕ :=
  match r.watch, r.runtime with
  | some watch, some runtime => if watch.status = .active then some runtime.consecutiveOutages else none
  | _, _ => none

/-- The outage counter of a row whose document and sidecar are known. -/
theorem Row.outages_eq {r : Row} {w : Watch} {rt : WatchRuntime} (hw : r.watch = some w)
    (hrt : r.runtime = some rt) :
    r.outages = if w.status = .active then some rt.consecutiveOutages else none := by
  simp [Row.outages, hw, hrt]

/-- No call but a creation and a commit touches the outage counter of a watch that stays active. -/
theorem Effect.outages {d : Duration} {now : Time} {u : String} {r r' : Row} {op : Op} {reply : Reply}
    (he : Effect d now r op reply r') (hco : r.Coherent u) (hcreate : ∀ w rt, op ≠ .create w rt)
    (hcommit : ∀ c nw nr, op ≠ .commit c nw nr) : r'.outages = r.outages ∨ r'.outages = none := by
  cases he with
  | create => exact absurd rfl (hcreate _ _)
  | reschedule | finish => exact absurd rfl (hcommit _ _ _)
  | claim | release | claimDispatch | markDispatched | releaseDispatch => exact .inl rfl
  | begin hwatch hruntime | pend hwatch hruntime =>
    left
    simp only [Row.outages, hwatch, hruntime]
  | cancel | expire =>
    right
    unfold Row.outages Row.finish
    split
    · rename_i w rt hw hrt
      obtain rfl := Option.some.inj hw
      simp [Watch.ended]
    · rfl
  | synthesize hwatch hactive hmarker =>
    -- An active watch has its marker, so there is nothing to repair.
    obtain ⟨rt, due, hs⟩ := hco.active _ hwatch hactive
    exact absurd (hmarker.symm.trans hs.marker) (by simp)

/-- A delivery that commits has drawn its jitter from the schedule. -/
def Task.Drawn (svc : WatchService) : Task → Prop
  | .committing c verdict plan => ∃ now offset, svc.schedule.Draws offset ∧
      plan = verdict.plan svc c now offset
  | _ => True

/-- A step that computes a plan draws the jitter for it. -/
theorem Task.Step.drawn {svc : WatchService} {s : Store} {offset : ℚ} {task task' : Task} {input : Input}
    {reply : Option Reply} (h : Task.Step svc s offset task input reply task')
    (hdraws : svc.schedule.Draws offset) : task'.Drawn svc := by
  have hcommit : ∀ {c now verdict}, (Task.commit svc offset c now verdict).Drawn svc :=
    ⟨_, offset, hdraws, rfl⟩
  cases h with
  | exhausted | replayed | nothingFound | found | permitCancelled | booked | cancelRequested
  | missed | absent | confirmed | neverKnown => exact hcommit
  | failed hawait =>
    rcases hawait with rfl | rfl | ⟨left, message, rfl⟩ <;> exact hcommit
  | overdue hawait =>
    rcases hawait with ⟨slots, rfl⟩ | ⟨slot, rest, rfl⟩ | ⟨error, rfl⟩ <;> exact hcommit
  | _ => trivial

namespace Sys

variable {svc : WatchService}

/-- In a reachable state every plan was computed with a jitter of the schedule. -/
theorem drawn {s : Sys} (hr : (sysMachine svc).Reach s) : ∀ i, (s.tasks i).Drawn svc := by
  refine hr.invariant (P := fun s => ∀ i, (s.tasks i).Drawn svc) ?_ ?_
  · rintro s ⟨-, htasks, -⟩ i
    rw [htasks i]
    trivial
  · intro s label hr hd ha i
    rcases tasks_exec ha i with ⟨htask, -⟩ | htask | ⟨hentry, -, -⟩ | ⟨input, offset, -, hdraws, hstep⟩
    · rw [htask]
      exact hd i
    · rw [htask]
      trivial
    · generalize ((sysMachine svc).exec label s).tasks i = task at hentry
      cases task <;> trivial
    · exact hstep.drawn hdraws

/-- The windows committed along a run are in step with the store: these are its commits, and the stored
counter of an active watch is the saturation of its outages in a row. -/
structure Tallied (svc : WatchService) (s : Sys) (l : List CommittedWindow) : Prop where
  /-- The windows are the ones that the store committed. -/
  committed : l.map CommittedWindow.claim = s.store.committed
  /-- The stored counter saturates. -/
  counter : ∀ u n, (s.store.row u).outages = some n → n = saturatingOutages svc (outageRun u l)

/-- Windows are committed only of watches that were created. -/
theorem Tallied.created {s : Sys} (hr : (sysMachine svc).Reach s) {l : List CommittedWindow}
    (h : s.Tallied svc l) {k : CommittedWindow} (hk : k ∈ l) : k.claim.watch.watchId ∈ s.store.created := by
  have hlawful := Store.lawful_of_served (reach_store hr)
  have hcommitted : k.claim ∈ s.store.committed := h.committed ▸ List.mem_map.mpr ⟨k, hk, rfl⟩
  have hissued := (Store.committed_ordered hlawful (Store.advances (reach_store hr))).issued _ hcommitted
  exact (Store.keyed hlawful _).issued (List.ne_nil_of_mem (Store.mem_issuedFor.mpr ⟨hissued, rfl⟩))

/-- A claim that owns its watch counts on from the stored counter. -/
theorem Tallied.claim_counter {s : Sys} (hr : (sysMachine svc).Reach s) {l : List CommittedWindow}
    (h : s.Tallied svc l) {c : WindowClaim} (hc : c ∈ s.store.issued)
    (howns : (s.store.row c.watch.watchId).Owns s.store.now c) :
    c.runtime.consecutiveOutages = saturatingOutages svc (outageRun c.watch.watchId l) := by
  have hlawful := Store.lawful_of_served (reach_store hr)
  obtain ⟨hdoc, hbase⟩ := Store.owned_current hlawful hc howns
  obtain ⟨runtime, hruntime, hbase⟩ := Option.map_eq_some_iff.mp hbase
  have hclaim : runtime.consecutiveOutages = c.runtime.consecutiveOutages := by
    simpa [WatchRuntime.base] using congrArg WatchRuntime.consecutiveOutages hbase
  have hstored : (s.store.row c.watch.watchId).outages = some runtime.consecutiveOutages :=
    (Row.outages_eq hdoc hruntime).trans (if_pos (Store.issued_active hlawful c hc))
  rw [← hclaim]
  exact h.counter _ _ hstored

/-- A step keeps the windows and the counters in step. -/
theorem Tallied.exec {s : Sys} (hr : (sysMachine svc).Reach s) {l : List CommittedWindow}
    (h : s.Tallied svc l) {label : SysLabel} (ha : (sysMachine svc).allowed s label) :
    ((sysMachine svc).exec label s).Tallied svc ((s.commits label).toList ++ l) := by
  have hlawful := Store.lawful_of_served (reach_store hr)
  cases hk : s.commits label with
  | some k =>
    obtain ⟨i, input, offset, plan, rfl, htask, hc, ⟨now, offset', hplan⟩, happ⟩ :=
      commits_eq_some (wf_and_store hr).1 hk
    have hstore : ((sysMachine svc).exec (.resume i input offset) s).store =
        s.store.call (.commit k.claim plan.watch plan.runtime) :=
      store_of_op (op_committing htask input offset)
    refine ⟨?_, fun u n hn => ?_⟩
    · rw [hstore, Store.committed_applied happ, ← h.committed]
      rfl
    rw [hstore] at hn
    by_cases hu : k.claim.watch.watchId = u
    · subst hu
      obtain ⟨r, hrow, he⟩ := Store.effect_of_applied happ
      change (s.store.call _).row k.claim.watch.watchId = r at hrow
      rw [hrow] at hn
      generalize s.store.reply (.commit k.claim plan.watch plan.runtime) = reply at he
      cases he with
      | @reschedule _ _ _ watch runtime hwatch hruntime hactive hrev howns hnew =>
        obtain rfl : plan.runtime.consecutiveOutages = n := by
          simpa [Row.outages, Row.reschedule, hnew] using hn
        subst hplan
        exact Verdict.plan_counter k.claim now offset' k.verdict hnew rfl (h.claim_counter hr hc howns)
      | finish _ _ _ _ _ hnew => simp [Row.outages, Row.finish, hnew] at hn
    · have hrow : (s.store.call (.commit k.claim plan.watch plan.runtime)).row u = s.store.row u :=
        Store.row_call_of_ne hu rfl
      rw [hrow] at hn
      rw [Option.toList_some, List.singleton_append, outageRun_cons_ne hu]
      exact h.counter u n hn
  | none =>
    rcases exec_store svc s label with he | ⟨now, -, he⟩
    · cases hop : s.op label with
      | none =>
        rw [hop] at he
        exact ⟨by rw [he]; exact h.committed, by rw [he]; exact h.counter⟩
      | some op =>
        rw [hop] at he
        change ((sysMachine svc).exec label s).store = s.store.call op at he
        have hcommit : ∀ c nw nr, op = .commit c nw nr → (s.store.reply op).isApplied = false := by
          rintro c nw nr rfl
          exact not_applied_of_commits ha hk hop
        refine ⟨?_, fun u n hn => ?_⟩
        · rw [he, Store.committed_of_not_applied hcommit]
          exact h.committed
        rw [he] at hn
        rcases s.store.row_call op u with ⟨ht, heff⟩ | ⟨hrow, -⟩ | ⟨-, hclean⟩
        · by_cases hcreate : ∃ w rt, op = .create w rt
          · -- A new watch starts with a counter of zero, and nothing of it was committed.
            obtain ⟨w, rt, rfl⟩ := hcreate
            have hserved := served_op (wf_and_store hr).1 ha hop
            obtain ⟨hactive, -, required, supports, phase, hrt⟩ := hserved.2
            generalize (s.store.call (.create w rt)).row u = r at heff hn
            generalize s.store.reply (.create w rt) = reply at heff
            cases heff with
            | create hnone =>
              obtain rfl : w.watchId = u := ht
              have hnew : w.watchId ∉ s.store.created := hserved.1.2 hnone
              obtain rfl : 0 = n := by simpa [Row.outages, hactive, hrt, initialRuntime] using hn
              have hzero : outageRun w.watchId l = 0 :=
                outageRun_eq_zero fun k hk heq => hnew (heq ▸ h.created hr hk)
              simp [hzero, saturatingOutages]
          · have hne : ∀ c nw nr, op ≠ .commit c nw nr := by
              rintro c nw nr rfl
              have hn := hcommit c nw nr rfl
              rw [heff.isApplied_of_commit] at hn
              contradiction
            rcases heff.outages (Store.coherent (reach_store hr) u)
                (fun w rt heq => hcreate ⟨w, rt, heq⟩) hne with hsame | hgone
            · exact h.counter u n (hsame ▸ hn)
            · exact absurd (hgone.symm.trans hn) (by simp)
        · exact h.counter u n (hrow ▸ hn)
        · rcases hclean with hrow | ⟨-, hrow⟩ | ⟨-, hrow⟩ <;> rw [hrow] at hn
          · exact h.counter u n hn
          · simp [Row.outages, Row.vacant] at hn
          · exact h.counter u n hn
    · exact ⟨by rw [he]; exact h.committed, by rw [he]; exact h.counter⟩

/-- The backoff after outages is the capped exponential. Under every accepted choice of settings and in
every run of the service: an outage that is committed after `n` others in a row follows the capped
exponential `min(maximum, interval * 2 ** n)`, for a jitter that the schedule can draw; the stored counter
of an active watch is the number of outages in a row, saturated; after a committed miss it is back at zero
and the next outage counts as the first; and the loop of `_exponent_limit` ends with the least number of
doublings that takes the interval to the maximum. -/
theorem backoff_exponential (settings : WatchSettings) {s : Sys}
    (hs : (sysMachine settings.service).init s) {labels : List SysLabel}
    (hr : (sysMachine settings.service).Runs s labels) :
    let svc := settings.service
    let windows := (sysMachine svc).trace commits s labels
    let s' := (sysMachine svc).final s labels
    (∀ label k error, (sysMachine svc).allowed s' label → s'.commits label = some k →
      k.verdict = .outage error → ∃ i plan now offset, s'.tasks i = .committing k.claim k.verdict plan ∧
        ((sysMachine svc).exec label s').store = s'.store.call (.commit k.claim plan.watch plan.runtime) ∧
        plan = commitOutage svc k.claim now error offset ∧ svc.schedule.Draws offset ∧
        plan.BacksOff svc k.claim (outageRun k.claim.watch.watchId windows) now offset) ∧
    (∀ u n, (s'.store.row u).outages = some n → n = saturatingOutages svc (outageRun u windows)) ∧
    (∀ label k, (sysMachine svc).allowed s' label → s'.commits label = some k → k.verdict = .miss →
      outageRun k.claim.watch.watchId (k :: windows) = 0 ∧
      ∀ n, (((sysMachine svc).exec label s').store.row k.claim.watch.watchId).outages = some n → n = 0) ∧
    ∀ interval maximum : ℚ, 0 < interval →
      (∀ fuel, exponentLimit interval maximum ≤ fuel →
        exponentLimitFrom maximum fuel interval 0 = exponentLimit interval maximum) ∧
      IsLeast {k : ℕ | maximum ≤ interval * 2 ^ k} (exponentLimit interval maximum) := by
  intro svc windows s'
  have htallied : s'.Tallied svc windows := by
    refine Machine.trace_invariant (P := fun s l => s.Tallied svc l) ?_ ?_ hs hr
    · rintro s ⟨⟨retention, hmem, hlog⟩, -⟩
      refine ⟨by simp [Store.committed, hlog], fun u n hn => ?_⟩
      rw [Store.row, hmem] at hn
      contradiction
    · exact fun s l label hreach ih ha => ih.exec hreach ha
  have hreach : (sysMachine svc).Reach s' := (Machine.Reach.init hs).final hr
  refine ⟨fun label k error ha hk hverdict => ?_, htallied.counter, fun label k ha hk hverdict => ?_,
    fun interval maximum hpos => ⟨fun fuel hfuel => exponentLimitFrom_eq hpos hfuel, ?_⟩⟩
  · obtain ⟨i, input, o, plan, rfl, htask, hc, -, happ⟩ := commits_eq_some (wf_and_store hreach).1 hk
    have hdrawn := drawn hreach i
    rw [htask] at hdrawn
    obtain ⟨now, offset, hdraws, hplan⟩ := hdrawn
    rw [hverdict] at hplan
    have hlawful := Store.lawful_of_served (reach_store hreach)
    have hactive := Store.issued_active hlawful _ hc
    obtain ⟨r, hrow, he⟩ := Store.effect_of_applied happ
    have howns : (s'.store.row k.claim.watch.watchId).Owns s'.store.now k.claim := by
      generalize s'.store.reply (.commit k.claim plan.watch plan.runtime) = reply at he
      cases he with
      | reschedule _ _ _ _ howns | finish _ _ _ _ howns => exact howns
    have hcounter := htallied.claim_counter hreach hc howns
    refine ⟨i, plan, now, offset, htask, store_of_op (op_committing htask input o), hplan, hdraws, ?_⟩
    rw [hplan]
    exact commitOutage_backsOff settings.floor_le_cap hactive hcounter now error offset
  · have hzero : outageRun k.claim.watch.watchId (k :: windows) = 0 := by
      obtain ⟨claim, verdict⟩ := k
      obtain rfl : verdict = .miss := hverdict
      simp [outageRun]
    refine ⟨hzero, fun n hn => ?_⟩
    have hnext := (htallied.exec hreach ha).counter _ n hn
    rw [hk, Option.toList_some, List.singleton_append, hzero] at hnext
    simpa [saturatingOutages] using hnext
  · obtain ⟨hle, hlt⟩ := @exponentLimit_spec _ maximum hpos
    exact ⟨hle, fun k hk => not_lt.mp fun hless => absurd hk (not_le.mpr (hlt k hless))⟩

/-- A run in which the provider does not answer the first two checks in time, up to the second commit. -/
def outagesRun : List SysLabel :=
  createRun false ++
    [.start 1 (.claiming "w" "w:0" "a" true), .resume 1 .proceed 0, .resume 1 .proceed 0,
      .resume 1 (.failed .timeout) 0, .resume 1 .proceed 0, .tick 60000000,
      .start 2 (.claiming "w" "w:1" "a" true), .resume 2 .proceed 0, .resume 2 .proceed 0,
      .resume 2 (.failed .timeout) 10]

/-- The service after the run `outagesRun`. -/
def outagesSys : Sys := (sysMachine minutely.service).final fresh outagesRun

/-- The second outage in a row doubles the delay. -/
theorem backoff_exponential_second : ∃ (k : CommittedWindow) (plan : Plan) (now : Time) (offset : ℚ),
    outagesSys.commits (.resume 2 .proceed 0) = some k ∧
      plan.BacksOff minutely.service k.claim 1 now offset := by
  have hr : (sysMachine minutely.service).Runs fresh outagesRun := by decide +kernel
  have hallowed : (sysMachine minutely.service).allowed outagesSys (.resume 2 .proceed 0) := by
    decide +kernel
  have hcommits : ((outagesSys.commits (.resume 2 .proceed 0)).map CommittedWindow.verdict) =
      some Failure.timeout.verdict := by decide +kernel
  have hcount : outageRun "w" ((sysMachine minutely.service).trace commits fresh outagesRun) = 1 := by
    decide +kernel
  have hid : ∀ k, outagesSys.commits (.resume 2 .proceed 0) = some k → k.claim.watch.watchId = "w" := by
    intro k hk
    have hids : (outagesSys.commits (.resume 2 .proceed 0)).map (·.claim.watch.watchId) = some "w" := by
      decide +kernel
    rw [hk] at hids
    exact Option.some.inj hids
  obtain ⟨k, hk, hverdict⟩ := Option.map_eq_some_iff.mp hcommits
  obtain ⟨i, plan, now, offset, -, -, -, -, hback⟩ :=
    (backoff_exponential minutely fresh_init hr).1 _ k _ hallowed hk hverdict
  rw [hid k hk, hcount] at hback
  exact ⟨k, plan, now, offset, hk, hback⟩

end Sys

end Dibs
