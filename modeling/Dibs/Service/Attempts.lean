import Dibs.Service.System

/-!
# Attempts are counted exactly

A check that was completed costs one attempt: a miss, a find, or a booking that this delivery made.
Four builders of `watch_service.py` compute the new count from the watch that the claim was issued
on, and the fenced commit writes it. A claim that still owns its watch was issued on the stored
document (`Store.owned_current`), so the count that is written is the stored one, plus one if the
check was completed, and along a run the stored count is the number of such commits.

The builders clamp the count to `max_attempts`. A delivery starts a check only below the ceiling, so
the clamp never bites: `Verdict.unclamped` is the same transition without it.
-/

namespace Dibs

/-- A check that was completed: it found nothing, or slots, or made the booking itself. -/
def Verdict.completes : Verdict → Bool
  | .miss | .found _ | .booked _ true => true
  | .exhausted | .outage _ | .booked _ false | .cancelled => false

/-- `_commit_miss` without `min(…, max_attempts)`. -/
def commitMissUnclamped (svc : WatchService) (claim : WindowClaim) (now : Time)
    (error : Option String) (offset : ℚ) : Plan :=
  let watch := claim.watch
  let attempted := { watch with
    attempts := watch.attempts + 1
    lastCheckedAt := some now
    updatedAt := now
    lastError := error }
  let delay := min (svc.schedule.nextDelay offset) (totalSeconds (watch.expiresAt - now))
  if watch.maxAttempts ≤ watch.attempts + 1 ∨ delay < minDelaySeconds then
    commitTerminal claim (expiredWatch attempted now true)
  else
    let scheduled := now + timedelta delay
    ⟨{ attempted with nextCheckAt := some scheduled },
      successorRuntime watch.watchId claim.runtime scheduled 0, .dispatch delay scheduled⟩

/-- The transition of a verdict when the builders do not clamp the attempts to `max_attempts`. -/
def Verdict.unclamped (svc : WatchService) (claim : WindowClaim) (now : Time) (offset : ℚ) :
    Verdict → Plan
  | .miss => commitMissUnclamped svc claim now none offset
  | .found slots => commitTerminal claim { foundWatch claim.watch slots now with
      attempts := claim.watch.attempts + 1 }
  | .booked confirmation true => commitTerminal claim { bookedWatch claim.watch now confirmation true with
      attempts := claim.watch.attempts + 1 }
  | verdict => verdict.plan svc claim now offset

/-- Below the ceiling the clamp changes nothing. -/
theorem Verdict.unclamped_eq (svc : WatchService) {claim : WindowClaim} (now : Time) (offset : ℚ)
    {verdict : Verdict}
    (h : verdict.completes = true → claim.watch.attempts < claim.watch.maxAttempts) :
    verdict.unclamped svc claim now offset = verdict.plan svc claim now offset := by
  have hmin : verdict.completes = true →
      min (claim.watch.attempts + 1) claim.watch.maxAttempts = claim.watch.attempts + 1 :=
    fun hc => Nat.min_eq_left (h hc)
  cases verdict with
  | exhausted | outage | cancelled => rfl
  | miss =>
    simp only [unclamped, plan, commitMiss, commitMissUnclamped]
    rw [hmin rfl]
  | found slots =>
    simp only [unclamped, plan, foundWatch]
    rw [hmin rfl]
  | booked confirmation attempted =>
    cases attempted with
    | false => rfl
    | true =>
      simp only [unclamped, plan, bookedWatch, if_true]
      rw [hmin rfl]

/-- What a verdict costs. -/
theorem Verdict.plan_attempts (svc : WatchService) (claim : WindowClaim) (now : Time) (offset : ℚ)
    (verdict : Verdict) : (verdict.plan svc claim now offset).watch.attempts =
      if verdict.completes then min (claim.watch.attempts + 1) claim.watch.maxAttempts
      else claim.watch.attempts := by
  cases verdict with
  | exhausted | found | cancelled => rfl
  | booked confirmation attempted => cases attempted <;> rfl
  | miss =>
    simp only [plan, commitMiss]
    split_ifs <;> first | rfl | contradiction
  | outage error =>
    simp only [plan, commitOutage]
    split <;> rfl

/-- Every plan keeps the ceiling. -/
theorem Verdict.plan_maxAttempts (svc : WatchService) (claim : WindowClaim) (now : Time) (offset : ℚ)
    (verdict : Verdict) :
    (verdict.plan svc claim now offset).watch.maxAttempts = claim.watch.maxAttempts := by
  cases verdict with
  | exhausted | found | cancelled => rfl
  | booked confirmation attempted => cases attempted <;> rfl
  | miss =>
    simp only [plan, commitMiss]
    split_ifs <;> rfl
  | outage error =>
    simp only [plan, commitOutage]
    split <;> rfl

/-- No call but a creation and a commit touches the attempts of a watch. -/
theorem Effect.attempts {d : Duration} {now : Time} {r r' : Row} {op : Op} {reply : Reply}
    (he : Effect d now r op reply r') (hcreate : ∀ w rt, op ≠ .create w rt)
    (hcommit : ∀ c nw nr, op ≠ .commit c nw nr) {w' : Watch} (hw' : r'.watch = some w') :
    ∃ w, r.watch = some w ∧ w'.attempts = w.attempts ∧ w'.maxAttempts = w.maxAttempts := by
  cases he with
  | create => exact absurd rfl (hcreate _ _)
  | reschedule | finish => exact absurd rfl (hcommit _ _ _)
  | cancel hwatch | expire hwatch =>
    obtain rfl := Option.some.inj hw'
    exact ⟨_, hwatch, rfl, rfl⟩
  | _ => exact ⟨w', hw', rfl, rfl⟩

/-- A commit with an effect was applied. -/
theorem Effect.isApplied_of_commit {d : Duration} {now : Time} {r r' : Row} {c : WindowClaim}
    {nw : Watch} {nr : WatchRuntime} {reply : Reply} (he : Effect d now r (.commit c nw nr) reply r') :
    reply.isApplied = true := by
  cases he <;> rfl

/-- A task that checks is below the ceiling, and so is one that commits a completed check. -/
def Task.BelowCeiling : Task → Prop
  | .replaying c _ | .searching c _ | .permitting c _ _ | .booking c _ _ _ | .checking c _ _
  | .reconciling c _ _ _ => c.watch.attempts < c.watch.maxAttempts
  | .committing c verdict _ => verdict.completes = true → c.watch.attempts < c.watch.maxAttempts
  | _ => True

/-- A delivery that goes on to check is below the ceiling, and what it then commits is a check that
it made. -/
theorem Task.Step.belowCeiling {svc : WatchService} {s : Store} {offset : ℚ} {task task' : Task}
    {input : Input} {reply : Option Reply} (h : Task.Step svc s offset task input reply task')
    (hb : task.BelowCeiling) : task'.BelowCeiling := by
  cases h with
  | failed hawait =>
    rcases hawait with rfl | rfl | ⟨left, message, rfl⟩ <;> exact fun _ => hb
  | overdue hawait =>
    rcases hawait with ⟨slots, rfl⟩ | ⟨slot, rest, rfl⟩ | ⟨error, rfl⟩ <;> exact fun _ => hb
  | exhausted => exact fun h => absurd h (by simp [Verdict.completes])
  | autoBook _ _ hbelow | monitor _ _ hbelow => exact hbelow
  | _ => first | trivial | exact hb | exact fun _ => hb

/-- A window that was committed, with what its check came to. -/
structure CommittedWindow where
  claim : WindowClaim
  verdict : Verdict

/-- The window of a watch was committed with a completed check. -/
def CommittedWindow.completes (u : String) (k : CommittedWindow) : Bool :=
  k.claim.watch.watchId = u && k.verdict.completes

/-- The watch that a call stored anew. -/
def Entry.createdWatch (e : Entry) : Option Watch :=
  match e.reply with
  | .create (.created w _) => some w
  | _ => none

/-- A watch was created without an attempt spent. -/
def Store.StartsUnchecked (s : Store) (u : String) : Prop :=
  ∀ w ∈ s.log.filterMap Entry.createdWatch, w.watchId = u → w.attempts = 0

instance (s : Store) (u : String) : Decidable (s.StartsUnchecked u) :=
  inferInstanceAs (Decidable (∀ w ∈ s.log.filterMap Entry.createdWatch, _))

namespace Sys

variable {svc : WatchService}

/-- The window that a step commits. -/
def commits (s : Sys) : SysLabel → Option CommittedWindow
  | .resume i _ _ =>
    match s.tasks i with
    | .committing c verdict plan =>
      if (s.store.reply (.commit c plan.watch plan.runtime)).isApplied then some ⟨c, verdict⟩
      else none
    | _ => none
  | _ => none

/-- A step that commits a window is the applied commit of a plan of the service. -/
theorem commits_eq_some {s : Sys} (hwf : ∀ i, (s.tasks i).Wf svc s.store) {label : SysLabel}
    {k : CommittedWindow} (h : s.commits label = some k) :
    ∃ i input offset plan, label = .resume i input offset ∧
      s.tasks i = .committing k.claim k.verdict plan ∧ k.claim ∈ s.store.issued ∧
      (∃ now offset, plan = k.verdict.plan svc k.claim now offset) ∧
      (s.store.reply (.commit k.claim plan.watch plan.runtime)).isApplied = true := by
  unfold commits at h
  split at h
  · rename_i i input offset
    split at h
    · rename_i c verdict plan htask
      split_ifs at h with happ
      obtain rfl := Option.some.inj h
      have hw := hwf i
      rw [htask] at hw
      exact ⟨i, input, offset, plan, rfl, htask, hw.1, hw.2, happ⟩
    · contradiction
  · contradiction

/-- A step that commits no window makes no commit that is applied. -/
theorem not_applied_of_commits {s : Sys} {label : SysLabel} (ha : (sysMachine svc).allowed s label)
    (h : s.commits label = none) {c : WindowClaim} {nw : Watch} {nr : WatchRuntime}
    (hop : s.op label = some (.commit c nw nr)) : (s.store.reply (.commit c nw nr)).isApplied = false := by
  obtain ⟨i, input, offset, verdict, plan, rfl, htask, rfl, rfl⟩ := commit_of_op ha hop
  simp only [commits, htask] at h
  split_ifs at h with happ
  simpa using happ

/-- In a reachable state every delivery that checks is below the ceiling. -/
theorem belowCeiling {s : Sys} (hr : (sysMachine svc).Reach s) : ∀ i, (s.tasks i).BelowCeiling := by
  refine hr.invariant (P := fun s => ∀ i, (s.tasks i).BelowCeiling) ?_ ?_
  · rintro s ⟨-, htasks, -⟩ i
    rw [htasks i]
    trivial
  · intro s label hr hb ha i
    rcases tasks_exec ha i with ⟨htask, -⟩ | htask | ⟨hentry, -, -⟩ | ⟨input, offset, -, -, hstep⟩
    · rw [htask]
      exact hb i
    · rw [htask]
      trivial
    · generalize ((sysMachine svc).exec label s).tasks i = task at hentry
      cases task <;> trivial
    · exact hstep.belowCeiling (hb i)

/-- What was committed is in step with the store: these are its commits, and the attempts of a watch
are the completed checks among them. -/
structure Counted (s : Sys) (u : String) (l : List CommittedWindow) : Prop where
  /-- The windows are the ones that the store committed. -/
  committed : l.map CommittedWindow.claim = s.store.committed
  /-- The stored attempts are the completed checks. -/
  attempts : ∀ w, (s.store.row u).watch = some w →
    w.attempts = l.countP (CommittedWindow.completes u) ∧ w.attempts ≤ w.maxAttempts

/-- The commit of a window counts what its check came to. -/
theorem Counted.commit {s : Sys} (hr : (sysMachine svc).Reach s) {u : String}
    {l : List CommittedWindow} (h : s.Counted u l) {label : SysLabel}
    (ha : (sysMachine svc).allowed s label) {k : CommittedWindow} (hk : s.commits label = some k) :
    ((sysMachine svc).exec label s).Counted u (k :: l) := by
  obtain ⟨i, input, offset, plan, rfl, htask, hc, ⟨now, offset', hplan⟩, happ⟩ :=
    commits_eq_some (wf_and_store hr).1 hk
  have hstore : ((sysMachine svc).exec (.resume i input offset) s).store =
      s.store.call (.commit k.claim plan.watch plan.runtime) :=
    store_of_op (op_committing htask input offset)
  have hid : plan.watch.watchId = k.claim.watch.watchId :=
    Built.watchId ⟨k.verdict, now, offset', hplan⟩
  refine ⟨?_, fun w hw => ?_⟩
  · rw [hstore, Store.committed_applied happ, List.map_cons, h.committed]
  rw [hstore] at hw
  rw [List.countP_cons]
  by_cases hu : k.claim.watch.watchId = u
  · subst hu
    -- The owner computed the document from the stored one.
    obtain ⟨r, hrow, he⟩ := Store.effect_of_applied happ
    change (s.store.call _).row k.claim.watch.watchId = r at hrow
    have hboth : r.watch = some plan.watch ∧ (s.store.row k.claim.watch.watchId).watch = some k.claim.watch := by
      generalize s.store.reply (.commit k.claim plan.watch plan.runtime) = reply at he
      cases he with
      | reschedule _ _ _ _ howns | finish _ _ _ _ howns =>
        exact ⟨rfl, (Store.owned_current (Store.lawful_of_served (reach_store hr)) hc howns).1⟩
    obtain rfl : plan.watch = w := by simpa [hrow, hboth.1] using hw
    obtain ⟨hold, hle⟩ := h.attempts _ hboth.2
    have hbelow := belowCeiling hr i
    rw [htask] at hbelow
    rw [hplan, Verdict.plan_attempts, Verdict.plan_maxAttempts]
    cases hcompletes : k.verdict.completes with
    | false =>
      have hk : CommittedWindow.completes k.claim.watch.watchId k = false := by
        simp [CommittedWindow.completes, hcompletes]
      rw [hk]
      exact ⟨hold, hle⟩
    | true =>
      have hlt : k.claim.watch.attempts < k.claim.watch.maxAttempts := hbelow hcompletes
      have hk : CommittedWindow.completes k.claim.watch.watchId k = true := by
        simp [CommittedWindow.completes, hcompletes]
      rw [hk, if_pos rfl, if_pos rfl, ← hold, Nat.min_eq_left hlt]
      exact ⟨rfl, hlt⟩
  · have hrow : (s.store.call (.commit k.claim plan.watch plan.runtime)).row u = s.store.row u :=
      Store.row_call_of_ne hu rfl
    rw [hrow] at hw
    simpa [CommittedWindow.completes, hu] using h.attempts w hw

/-- Nothing was committed for a watch that was not created. -/
theorem Counted.not_completes {s : Sys} (hr : (sysMachine svc).Reach s) {u v : String}
    {l : List CommittedWindow} (h : s.Counted u l) {k : CommittedWindow} (hk : k ∈ l)
    (hv : v ∉ s.store.created) : ¬ k.completes v = true := by
  intro hcompletes
  have hid : k.claim.watch.watchId = v := by
    simp only [CommittedWindow.completes, Bool.and_eq_true, decide_eq_true_eq] at hcompletes
    exact hcompletes.1
  have hlawful := Store.lawful_of_served (reach_store hr)
  have hcommitted : k.claim ∈ s.store.committed :=
    h.committed ▸ List.mem_map.mpr ⟨k, hk, rfl⟩
  have hissued := (Store.committed_ordered hlawful (Store.advances (reach_store hr))).issued _ hcommitted
  exact hv ((Store.keyed hlawful v).issued
    (List.ne_nil_of_mem (Store.mem_issuedFor.mpr ⟨hissued, hid⟩)))

/-- A step that commits no window leaves the counts alone. -/
theorem Counted.other {s : Sys} (hr : (sysMachine svc).Reach s) {u : String}
    {l : List CommittedWindow} (h : s.Counted u l) {label : SysLabel}
    (ha : (sysMachine svc).allowed s label) (hk : s.commits label = none)
    (hzero : ((sysMachine svc).exec label s).store.StartsUnchecked u) :
    ((sysMachine svc).exec label s).Counted u l := by
  rcases exec_store svc s label with he | ⟨now, -, he⟩
  · cases hop : s.op label with
    | none =>
      rw [hop] at he
      exact ⟨by rw [he]; exact h.committed, by rw [he]; exact h.attempts⟩
    | some op =>
      rw [hop] at he
      change ((sysMachine svc).exec label s).store = s.store.call op at he
      rw [he] at hzero
      refine ⟨?_, fun w hw => ?_⟩
      · rw [he, Store.committed_of_not_applied, h.committed]
        rintro c nw nr rfl
        exact not_applied_of_commits ha hk hop
      rw [he] at hw
      rcases s.store.row_call op u with ⟨ht, heff⟩ | ⟨hrow, -⟩ | ⟨-, hclean⟩
      · generalize (s.store.call op).row u = r at heff hw
        generalize hreply : s.store.reply op = reply at heff
        by_cases hcreate : ∃ w' rt, op = .create w' rt
        · -- A new watch starts with no attempt, and nothing of it was committed.
          obtain ⟨w', rt, rfl⟩ := hcreate
          have hserved := (served_op (wf_and_store hr).1 ha hop).1
          have hw' : w'.watchId = u := ht
          subst hw'
          cases heff with
          | create hnone =>
            obtain rfl := Option.some.inj hw
            have hnew := hserved.2 hnone
            have hentry : Entry.createdWatch ⟨s.store.now, .create w' rt, s.store.reply (.create w' rt)⟩ =
                some w' := by
              rw [Entry.createdWatch, hreply]
            have hstart := hzero w' (List.mem_filterMap.mpr ⟨_, List.mem_cons_self, hentry⟩) rfl
            have hcount : l.countP (CommittedWindow.completes w'.watchId) = 0 :=
              List.countP_eq_zero.mpr fun k hk => h.not_completes hr hk hnew
            rw [hcount, hstart]
            exact ⟨rfl, Nat.zero_le _⟩
        · have hcommit : ∀ c nw nr, op ≠ .commit c nw nr := by
            rintro c nw nr rfl
            have hn := not_applied_of_commits ha hk hop
            rw [hreply, heff.isApplied_of_commit] at hn
            contradiction
          obtain ⟨w₀, hw₀, hattempts, hmax⟩ :=
            heff.attempts (fun w' rt heq => hcreate ⟨w', rt, heq⟩) hcommit hw
          rw [hattempts, hmax]
          exact h.attempts w₀ hw₀
      · rw [hrow] at hw
        exact h.attempts w hw
      · rcases hclean with hrow | ⟨-, hrow⟩ | ⟨-, hrow⟩ <;> rw [hrow] at hw
        · exact h.attempts w hw
        · simp [Row.vacant] at hw
        · exact h.attempts w hw
  · exact ⟨by rw [he]; exact h.committed, by rw [he]; exact h.attempts⟩

/-- Attempt accounting is exact. Over every run of the service, the attempts of a stored watch that was
created without one are the committed windows of the watch whose check was completed, each window is
committed at most once, and every plan that the service commits is the one that the builders compute
without the clamp to `max_attempts`, which the attempts never exceed. -/
theorem attempts_exact {s : Sys} (hs : (sysMachine svc).init s) {labels : List SysLabel}
    (hr : (sysMachine svc).Runs s labels) (u : String)
    (hzero : ((sysMachine svc).final s labels).store.StartsUnchecked u) :
    (∀ w, ((sysMachine svc).final s labels).store.mem.watches.get? u = some w →
      w.attempts =
        ((sysMachine svc).trace commits s labels).countP (CommittedWindow.completes u) ∧
      w.attempts ≤ w.maxAttempts) ∧
    (((sysMachine svc).trace commits s labels).map fun k => k.claim.windowId).Nodup ∧
    ∀ i c verdict plan, ((sysMachine svc).final s labels).tasks i = .committing c verdict plan →
      ∃ now offset, plan = verdict.plan svc c now offset ∧
        plan = verdict.unclamped svc c now offset := by
  have hcounted : ((sysMachine svc).final s labels).Counted u ((sysMachine svc).trace commits s labels) := by
    refine Machine.trace_invariant (P := fun s l => s.store.StartsUnchecked u → s.Counted u l)
      ?_ ?_ hs hr hzero
    · rintro s ⟨⟨retention, hmem, hlog⟩, -⟩ -
      refine ⟨by simp [Store.committed, hlog], fun w hw => ?_⟩
      rw [Store.row, hmem] at hw
      contradiction
    · intro s l label hr ih ha hstarts
      have hcounted := ih fun w hw => hstarts w (List.filterMap_subset _ (log_exec s label) hw)
      cases hk : s.commits label with
      | none => exact hcounted.other hr ha hk hstarts
      | some k => exact hcounted.commit hr ha hk
  have hreach := (Machine.Reach.init hs).final hr
  refine ⟨hcounted.attempts, ?_, fun i c verdict plan htask => ?_⟩
  · have hnodup := Store.served_windows_nodup (reach_store hreach)
    rwa [← hcounted.committed, List.map_map] at hnodup
  · have hwf := (wf_and_store hreach).1 i
    have hbelow := belowCeiling hreach i
    rw [htask] at hwf hbelow
    obtain ⟨-, now, offset, hplan⟩ := hwf
    exact ⟨now, offset, hplan, hplan.trans (Verdict.unclamped_eq svc now offset hbelow).symm⟩

/-- A run in which the first check finds nothing, a second delivery of the same window comes late, and
the provider does not answer the second check in time. -/
def checkRun : List SysLabel :=
  createRun false ++
    [.start 1 (.claiming "w" "w:0" "a" true), .resume 1 .proceed 0, .resume 1 .proceed 0,
      .resume 1 (.slots []) 0, .resume 1 .proceed 0, .start 2 (.claiming "w" "w:0" "b" true),
      .resume 2 .proceed 0, .tick 60000000, .start 3 (.claiming "w" "w:1" "a" true),
      .resume 3 .proceed 0, .resume 3 .proceed 0, .resume 3 (.failed .timeout) 0,
      .resume 3 .proceed 0]

/-- The service after the run `checkRun`. -/
def checkedSys : Sys := (sysMachine .sample).final fresh checkRun

/-- In the run `checkRun` two windows are committed and one attempt is spent. -/
theorem attempts_exact_check : (checkedSys.store.mem.watches.get? "w").map Watch.attempts = some 1 := by
  have hr : (sysMachine .sample).Runs fresh checkRun := by decide +kernel
  have hzero : checkedSys.store.StartsUnchecked "w" := by decide +kernel
  have hcount : ((sysMachine .sample).trace commits fresh checkRun).countP
      (CommittedWindow.completes "w") = 1 := by decide +kernel
  have hstored : (checkedSys.store.mem.watches.get? "w").isSome = true := by decide +kernel
  obtain ⟨w, hw⟩ := Option.isSome_iff_exists.mp hstored
  have hexact := (attempts_exact fresh_init hr "w" hzero).1 w hw
  rw [hw, Option.map_some, hexact.1, hcount]

end Sys

end Dibs
