import Dibs.Service.Attempts
import Dibs.Service.Policy

/-!
# A watch that supports its deadline reaches it

The budget of a watch is derived once, from the earliest delay of the schedule; the checks then spend
it over windows that are jittered, backed off, clipped to the deadline, retried and taken over.
`Watch.Paced` ties the two together: at an instant `t` at which a check may run, one earliest delay
has gone by since the creation for every attempt spent, or the deadline is there. It holds of the due
time of every window. A miss moves the next window by at least the earliest delay or to the deadline,
and an outage moves it and spends nothing, so every commit keeps it; and a watch on pace whose
deadline is not there has an attempt left beyond the one in hand.
-/

namespace Dibs

/-- A watch is on pace at an instant: the budget lasts to the deadline at the earliest delay, an attempt
is left, and the attempts spent took the earliest delay each, unless the deadline is there. -/
structure Watch.Paced (earliest : ℤ) (w : Watch) (t : Time) : Prop where
  /-- The budget lasts to the deadline. -/
  budget : w.expiresAt ≤ w.createdAt + (w.maxAttempts - 1) * earliest
  /-- An attempt is left. -/
  left : w.attempts < w.maxAttempts
  /-- The attempts took their time. -/
  pace : w.createdAt + w.attempts * earliest ≤ t ∨ w.expiresAt ≤ t

/-- A watch stays on pace. -/
theorem Watch.Paced.mono {earliest : ℤ} {w : Watch} {t t' : Time} (h : w.Paced earliest t)
    (ht : t ≤ t') : w.Paced earliest t' :=
  ⟨h.budget, h.left, h.pace.imp (le_trans · ht) (le_trans · ht)⟩

/-- Before the deadline a watch on pace has more than one attempt left. -/
theorem Watch.Paced.two_left {earliest : ℤ} {w : Watch} {t : Time} (h : w.Paced earliest t)
    (hpos : 0 < earliest) (ht : t < w.expiresAt) : w.attempts + 1 < w.maxAttempts := by
  have hpace : w.createdAt + w.attempts * earliest ≤ t := h.pace.resolve_right (not_le.mpr ht)
  have hlt : (w.attempts : ℤ) * earliest < (w.maxAttempts - 1) * earliest := by
    linarith [h.budget]
  have := lt_of_mul_lt_mul_right hlt hpos.le
  omega

/-- A number of microseconds that no delay of the schedule undercuts. -/
structure PollSchedule.Spaces (schedule : PollSchedule) (earliest : ℤ) : Prop where
  /-- It is positive. -/
  pos : 0 < earliest
  /-- No delay is shorter. -/
  le : ∀ offset, schedule.Draws offset → (earliest : ℚ) ≤ schedule.nextDelay offset * 1000000

/-- The settings space the checks by the earliest delay of the policy. -/
theorem WatchSettings.spaces (settings : WatchSettings) :
    settings.schedule.Spaces settings.schedule.earliestDelayMicroseconds := by
  refine ⟨settings.schedule.earliestDelayMicroseconds_pos, fun offset hdraws => ?_⟩
  calc (settings.schedule.earliestDelayMicroseconds : ℚ)
      ≤ settings.schedule.earliestDelay * 1000000 := settings.earliestDelayMicroseconds_eq.le
    _ ≤ settings.schedule.nextDelay offset * 1000000 := by
        have := settings.schedule.earliestDelay_le hdraws
        linarith

/-- The instant that a delay leads to, clipped to the deadline. -/
theorem timedelta_min {earliest : ℤ} {delay : ℚ} (h : (earliest : ℚ) ≤ delay * 1000000)
    (now expiresAt : Time) :
    now + earliest ≤ now + timedelta (min delay (totalSeconds (expiresAt - now))) ∨
      now + timedelta (min delay (totalSeconds (expiresAt - now))) = expiresAt := by
  rcases min_choice delay (totalSeconds (expiresAt - now)) with hmin | hmin <;> rw [hmin]
  · left
    have hround : earliest ≤ timedelta delay := le_roundHalfEven h
    exact Int.add_le_add_left hround now
  · right
    rw [timedelta_totalSeconds]
    exact add_sub_cancel now expiresAt

/-- What a plan promises about time: it expires its watch only when less than a second is left, and
the window that it schedules is on pace. -/
structure Plan.OnPace (earliest : ℤ) (plan : Plan) (now : Time) : Prop where
  /-- Less than a second is left. -/
  expired : plan.watch.status = .expired → plan.watch.expiresAt - now < 1000000
  /-- The next window is on pace. -/
  scheduled : plan.watch.status = .active →
    ∃ due, plan.runtime.scheduledFor = some due ∧ plan.watch.Paced earliest due

/-- Less than a second is left when the floor under the delays is more than what is left. -/
theorem lt_second_of_totalSeconds {d : Duration} (h : totalSeconds d < minDelaySeconds) :
    d < 1000000 := by
  unfold totalSeconds minDelaySeconds at h
  rw [div_lt_one (by norm_num)] at h
  exact_mod_cast h

/-- A miss keeps its watch on pace: it moves the next window by at least the earliest delay or to the
deadline, and it ends the watch only in the last second. -/
theorem commitMiss_onPace {svc : WatchService} {earliest : ℤ} (hs : svc.schedule.Spaces earliest)
    {claim : WindowClaim} (hactive : claim.watch.status = .active) {now : Time}
    (hpaced : claim.watch.Paced earliest now) (hbefore : now < claim.watch.expiresAt)
    (error : Option String) {offset : ℚ} (hdraws : svc.schedule.Draws offset) :
    (commitMiss svc claim now error offset).OnPace earliest now := by
  have hleft := hpaced.two_left hs.pos hbefore
  have hmin : min (claim.watch.attempts + 1) claim.watch.maxAttempts = claim.watch.attempts + 1 :=
    Nat.min_eq_left hleft.le
  unfold commitMiss
  dsimp only
  rw [hmin]
  split_ifs with hover
  · -- The ceiling is not reached, so the clipped delay is below the floor.
    have hdelay := hover.resolve_left (not_le.mpr hleft)
    have hremaining : totalSeconds (claim.watch.expiresAt - now) < minDelaySeconds :=
      (min_lt_iff.mp hdelay).resolve_left (not_lt.mpr (le_max_left ..))
    exact ⟨fun _ => lt_second_of_totalSeconds hremaining, by simp [commitTerminal]⟩
  · refine ⟨fun hexpired => absurd (hexpired.symm.trans hactive) (by simp), fun _ => ⟨_, rfl, ?_⟩⟩
    refine ⟨hpaced.budget, hleft, ?_⟩
    have hpace := hpaced.pace.resolve_right (not_le.mpr hbefore)
    rcases timedelta_min (hs.le offset hdraws) now claim.watch.expiresAt with hnext | hnext
    · left
      calc claim.watch.createdAt + ((claim.watch.attempts + 1 : ℕ) : ℤ) * earliest
          = claim.watch.createdAt + claim.watch.attempts * earliest + earliest := by push_cast; ring
        _ ≤ now + earliest := Int.add_le_add_right hpace earliest
        _ ≤ _ := hnext
    · right
      exact hnext.ge

/-- The delay after an outage is not negative. -/
theorem outageDelay_nonneg {svc : WatchService} {outages : ℕ} {now : Time} {watch : Watch}
    {offset delay : ℚ} (h : outageDelay svc outages now watch offset = some delay) : 0 ≤ delay := by
  unfold outageDelay at h
  dsimp only at h
  split_ifs at h with hremaining
  all_goals
    obtain rfl := Option.some.inj h
    have hmaximum : 0 ≤ svc.backoffMaxSeconds :=
      svc.schedule.interval_pos.le.trans (le_max_right ..)
    have hone : (0 : ℚ) ≤ minDelaySeconds := by norm_num [minDelaySeconds]
    exact le_min (le_min (hone.trans (le_max_right ..)) hmaximum) (hone.trans (not_lt.mp hremaining))

/-- An outage keeps its watch on pace: it spends nothing. -/
theorem commitOutage_onPace {svc : WatchService} {earliest : ℤ} {claim : WindowClaim}
    (hactive : claim.watch.status = .active) {now : Time} (hpaced : claim.watch.Paced earliest now)
    (error : String) (offset : ℚ) : (commitOutage svc claim now error offset).OnPace earliest now := by
  unfold commitOutage
  dsimp only
  split
  · rename_i hdelay
    unfold outageDelay at hdelay
    dsimp only at hdelay
    split_ifs at hdelay with hremaining
    all_goals exact ⟨fun _ => lt_second_of_totalSeconds hremaining, by simp [commitTerminal]⟩
  · rename_i delay hdelay
    refine ⟨fun hexpired => absurd (hexpired.symm.trans hactive) (by simp), fun _ => ⟨_, rfl, ?_⟩⟩
    have hnonneg : (0 : ℤ) ≤ timedelta delay :=
      le_roundHalfEven (by have := outageDelay_nonneg hdelay; push_cast; linarith)
    have hnext : claim.watch.Paced earliest (now + timedelta delay) := hpaced.mono (by linarith)
    exact ⟨hnext.budget, hnext.left, hnext.pace⟩

/-- What a delivery commits for a watch on pace is on pace, when it checked before the deadline or
found the deadline passed. -/
theorem Verdict.plan_onPace {svc : WatchService} {earliest : ℤ} (hs : svc.schedule.Spaces earliest)
    {claim : WindowClaim} (hactive : claim.watch.status = .active) {now : Time}
    (hpaced : claim.watch.Paced earliest now) {verdict : Verdict}
    (hover : verdict = .exhausted → claim.watch.expiresAt ≤ now)
    (hbefore : verdict ≠ .exhausted → now < claim.watch.expiresAt) {offset : ℚ}
    (hdraws : svc.schedule.Draws offset) :
    (verdict.plan svc claim now offset).OnPace earliest now := by
  cases verdict with
  | miss => exact commitMiss_onPace hs hactive hpaced (hbefore (by simp)) none hdraws
  | outage error => exact commitOutage_onPace hactive hpaced error offset
  | exhausted =>
    have hzero := hover rfl
    refine ⟨fun _ => ?_, by simp [plan, commitTerminal]⟩
    show claim.watch.expiresAt - now < 1000000
    linarith
  | found | booked | cancelled =>
    exact ⟨by simp [plan, commitTerminal, foundWatch, cancelledWatch],
      by simp [plan, commitTerminal, foundWatch, cancelledWatch]⟩

/-- The watch that a call expired. -/
def Entry.expired (e : Entry) : Option Watch :=
  match e.reply with
  | .commit (.committed w _) | .transition (.applied w _ _) =>
    if w.status = .expired then some w else none
  | _ => none

/-- A call that expired a watch was applied. -/
theorem Entry.isApplied_of_expired {e : Entry} {w : Watch} (h : e.expired = some w) :
    e.reply.isApplied = true := by
  unfold expired at h
  split at h
  · rename_i heq
    rw [heq]
    rfl
  · rename_i heq
    rw [heq]
    rfl
  · contradiction

/-- A watch was opened with a policy that supports its deadline. -/
def Watch.Supported (schedule : PollSchedule) (w : Watch) : Prop :=
  ∃ id query autoBook now expiresAt safetyCeiling policy,
    derive schedule now expiresAt safetyCeiling = .ok policy ∧ policy.supportsDeadline = true ∧
      w = (openedWatch id query autoBook now expiresAt policy).1

/-- A watch that supports its deadline starts on pace. -/
theorem Watch.Supported.paced {schedule : PollSchedule} {w : Watch} (h : w.Supported schedule) :
    w.attempts = 0 ∧ ∃ due, w.nextCheckAt = some due ∧
      w.Paced schedule.earliestDelayMicroseconds due := by
  obtain ⟨id, query, autoBook, now, expiresAt, safetyCeiling, policy, hderive, hsupports, rfl⟩ := h
  obtain ⟨hpos, hbudget⟩ := derive_budget hderive hsupports
  exact ⟨rfl, now, rfl, hbudget, hpos, .inl (by simp [openedWatch])⟩

/-- A delivery enforces the due time of its window. -/
def SysLabel.EnforcesDue : SysLabel → Prop
  | .start _ (.resolving _ _) => False
  | .start _ (.claiming _ _ _ enforceDue) => enforceDue = true
  | _ => True

/-- A task at work on a watch is on pace, and so is what it commits. -/
def Task.OnPace (earliest : ℤ) (u : String) (t : Time) : Task → Prop
  | .resolving _ _ => False
  | .claiming _ _ _ enforceDue => enforceDue = true
  | .replaying c now | .searching c now | .permitting c now _ | .booking c now _ _
  | .checking c now _ | .reconciling c now _ _ =>
    c.watch.watchId = u → c.watch.Paced earliest now ∧ now < c.watch.expiresAt ∧ now ≤ t
  | .committing c _ plan => c.watch.watchId = u → plan.OnPace earliest t
  | _ => True

/-- Less and less is left. -/
theorem Plan.OnPace.mono {earliest : ℤ} {plan : Plan} {t t' : Time} (h : plan.OnPace earliest t)
    (ht : t ≤ t') : plan.OnPace earliest t' :=
  ⟨fun he => by have := h.expired he; linarith, h.scheduled⟩

/-- A task stays on pace. -/
theorem Task.OnPace.mono {earliest : ℤ} {u : String} {t t' : Time} {task : Task}
    (h : task.OnPace earliest u t) (ht : t ≤ t') : task.OnPace earliest u t' := by
  cases task with
  | replaying | searching | permitting | booking | checking | reconciling =>
    exact fun hu => ⟨(h hu).1, (h hu).2.1, (h hu).2.2.trans ht⟩
  | committing => exact fun hu => (h hu).mono ht
  | _ => exact h

/-- The next await of a task on pace is on pace. -/
theorem Task.Step.onPace {svc : WatchService} {earliest : ℤ} (hs : svc.schedule.Spaces earliest)
    {s : Store} {offset : ℚ} {task task' : Task} {input : Input} {reply : Option Reply}
    (h : Task.Step svc s offset task input reply task') (hdraws : svc.schedule.Draws offset)
    {u : String} (htask : task.OnPace earliest u s.now)
    (hactive : ∀ c, task.claim = some c → c.watch.status = .active)
    (hissued : ∀ c, task.claim = some c → c.watch.watchId = u → c.watch.Paced earliest s.now) :
    task'.OnPace earliest u s.now := by
  -- A check that was made before the deadline is committed on pace.
  have hcommit : ∀ {c now verdict}, task.claim = some c → verdict ≠ .exhausted →
      (c.watch.watchId = u → c.watch.Paced earliest now ∧ now < c.watch.expiresAt ∧ now ≤ s.now) →
      (Task.commit svc offset c now verdict).OnPace earliest u s.now := by
    intro c now verdict hc hne hchecked hu
    obtain ⟨hpaced, hbefore, hle⟩ := hchecked hu
    exact (Verdict.plan_onPace hs (hactive c hc) hpaced (fun he => absurd he hne)
      (fun _ => hbefore) hdraws).mono hle
  cases h with
  | unresolved | resolved => exact htask.elim
  | @exhausted c _ _ hover =>
    intro hu
    have hpaced := hissued c rfl hu
    have hpassed : c.watch.expiresAt ≤ s.now := hover.resolve_right (not_le.mpr hpaced.left)
    exact Verdict.plan_onPace hs (hactive c rfl) hpaced (fun _ => hpassed)
      (fun hne => absurd rfl hne) hdraws
  | @autoBook c _ _ _ hbefore | @monitor c _ _ _ hbefore =>
    exact fun hu => ⟨hissued c rfl hu, hbefore, le_rfl⟩
  | @failed _ c now failure _ hawait =>
    have hne : failure.verdict ≠ .exhausted := by
      unfold Failure.verdict
      split <;> simp
    rcases hawait with rfl | rfl | ⟨left, message, rfl⟩ <;> exact hcommit rfl hne htask
  | overdue hawait =>
    rcases hawait with ⟨slots, rfl⟩ | ⟨slot, rest, rfl⟩ | ⟨error, rfl⟩ <;>
      exact hcommit rfl (by simp [Failure.verdict]) htask
  | replayed | nothingFound | found | permitCancelled | booked | cancelRequested | missed | absent
  | confirmed | neverKnown => exact hcommit rfl (by simp) htask
  | noReplay | tryBooking | granted | grantedNothing | nextSlot | noSlotLeft | ambiguous
  | definitivelyAbsent | stillUnknown => exact htask
  | _ => trivial

/-- The due time of an active watch is on pace. -/
def Row.OnPace (earliest : ℤ) (r : Row) : Prop :=
  ∀ w rt due, r.watch = some w → w.status = .active → r.runtime = some rt →
    rt.scheduledFor = some due → w.Paced earliest due

/-- Effects keep the due time on pace, when what is created and what is committed is. -/
theorem Row.OnPace.effect {earliest : ℤ} {d : Duration} {now : Time} {r r' : Row} {op : Op}
    {reply : Reply} {u : String} (h : r.OnPace earliest) (hco : r.Coherent u)
    (he : Effect d now r op reply r')
    (hcreate : ∀ w rt, op = .create w rt → ∀ due, rt.scheduledFor = some due → w.Paced earliest due)
    (hcommit : ∀ c nw nr, op = .commit c nw nr → nw.status = .active →
      ∃ due, nr.scheduledFor = some due ∧ nw.Paced earliest due) : r'.OnPace earliest := by
  intro w rt due hw ha hrt hdue
  cases he with
  | create =>
    obtain rfl := Option.some.inj hw
    obtain rfl := Option.some.inj hrt
    exact hcreate _ _ rfl due hdue
  | begin hwatch hruntime | pend hwatch hruntime =>
    obtain rfl := Option.some.inj hrt
    exact h w _ due hw ha hruntime hdue
  | @reschedule c nw nr _ _ _ _ _ _ _ hnew =>
    obtain rfl := Option.some.inj hw
    obtain rfl := Option.some.inj hrt
    obtain ⟨due', hdue', hpaced⟩ := hcommit c _ nr rfl hnew
    obtain rfl := Option.some.inj (hdue'.symm.trans hdue)
    exact hpaced
  | finish _ _ _ _ _ hnew =>
    obtain rfl := Option.some.inj hw
    exact absurd ha hnew
  | cancel | expire =>
    obtain rfl := Option.some.inj hw
    simp at ha
  | synthesize hwatch hactive hmarker =>
    -- An active watch has its marker, so there is nothing to repair.
    obtain ⟨_, _, hs⟩ := hco.active _ hwatch hactive
    exact absurd (hmarker.symm.trans hs.marker) (by simp)
  | _ => exact h w rt due hw ha hrt hdue

/-- Cleanup keeps the due time on pace. -/
theorem Row.OnPace.cleanup {earliest : ℤ} {r r' : Row} (h : r.OnPace earliest)
    (hc : Memory.CleanupStep r r') : r'.OnPace earliest := by
  rcases hc with rfl | ⟨-, rfl⟩ | ⟨-, rfl⟩
  · exact h
  · intro w rt due hw
    simp [Row.vacant] at hw
  · exact h

namespace Sys

/-- Everything that is about a watch is on pace, and the watch expired only in its last second. -/
structure OnPace (earliest : ℤ) (s : Sys) (u : String) : Prop where
  /-- The due time of the watch is on pace. -/
  row : (s.store.row u).OnPace earliest
  /-- So are its claims. -/
  issued : ∀ c ∈ s.store.issued, c.watch.watchId = u → c.watch.Paced earliest s.store.now
  /-- So are the deliveries at work on it. -/
  tasks : ∀ i, (s.tasks i).OnPace earliest u s.store.now
  /-- The watch expired only when less than a second was left. -/
  log : ∀ e ∈ s.store.log, ∀ w, e.expired = some w → w.watchId = u →
    w.expiresAt - e.instant < 1000000

/-- The watches that were created under an id support their deadlines. -/
def Supports (schedule : PollSchedule) (s : Sys) (u : String) : Prop :=
  ∀ w ∈ s.store.log.filterMap Entry.createdWatch, w.watchId = u → w.Supported schedule

variable {svc : WatchService} {earliest : ℤ}

/-- A call that expires a watch is on pace. -/
theorem OnPace.expired {s : Sys} {u : String} (hr : (sysMachine svc).Reach s) (hp : s.OnPace earliest u)
    {label : SysLabel} (ha : (sysMachine svc).allowed s label) {op : Op} (hop : s.op label = some op)
    {w : Watch} (hw : Entry.expired ⟨s.store.now, op, s.store.reply op⟩ = some w) (hu : w.watchId = u) :
    w.expiresAt - s.store.now < 1000000 := by
  have hlawful := Store.lawful_of_served (reach_store hr)
  obtain ⟨r, -, he⟩ := Store.effect_of_applied (Entry.isApplied_of_expired hw)
  have hreply := hw
  unfold Entry.expired at hreply
  dsimp only at hreply
  generalize s.store.reply op = reply at he hreply
  cases he with
  | reschedule _ _ _ _ _ hnew =>
    simp only [hnew] at hreply
    simp at hreply
  | @finish c nw nr _ _ _ _ _ _ howns hnew =>
    simp only at hreply
    split_ifs at hreply with hexpired
    obtain rfl := Option.some.inj hreply
    obtain ⟨i, input, offset, verdict, plan, -, htask, rfl, rfl⟩ := commit_of_op ha hop
    have hwf := (wf_and_store hr).1 i
    have hpace := hp.tasks i
    rw [htask] at hwf hpace
    obtain ⟨-, now, offset, hplan⟩ := hwf
    have hid : plan.watch.watchId = c.watch.watchId := Built.watchId ⟨verdict, now, offset, hplan⟩
    exact (hpace (hid.symm.trans hu)).expired hexpired
  | cancel => simp at hreply
  | @expire v expected force watch hwatch hactive hdue =>
    simp only [Watch.ended_status, if_true] at hreply
    obtain rfl := Option.some.inj hreply
    have hid : watch.watchId = v := (Store.keyed hlawful v).row.watchId watch hwatch
    have hv : v = u := hid.symm.trans hu
    subst hv
    obtain ⟨-, hforce⟩ := expire_of_op ha hop
    obtain ⟨rt, due, hs⟩ := (Store.coherent (reach_store hr) v).active watch hwatch hactive
    have hleft := (hp.row watch rt due hwatch hactive hs.runtime hs.scheduledFor).left
    -- An attempt is left, so it is the time that is over.
    have hover : watch.expiresAt ≤ s.store.now := by
      have hexhausted := hdue hforce
      simp only [Watch.isExhausted, Bool.or_eq_true, decide_eq_true_eq] at hexhausted
      exact hexhausted.resolve_left (not_le.mpr hleft)
    show watch.expiresAt - s.store.now < 1000000
    linarith
  | _ => simp at hreply

/-- A call leaves the due time of a watch on pace. -/
theorem OnPace.row_call {s : Sys} {u : String} (hr : (sysMachine svc).Reach s)
    (hp : s.OnPace earliest u) {label : SysLabel} (ha : (sysMachine svc).allowed s label) {op : Op}
    (hop : s.op label = some op)
    (hopens : ∀ w ∈ (s.store.call op).log.filterMap Entry.createdWatch,
      w.watchId = u → ∃ due, w.nextCheckAt = some due ∧ w.Paced earliest due) :
    ((s.store.call op).row u).OnPace earliest := by
  rcases s.store.row_call op u with ⟨ht, he⟩ | ⟨hrow, -⟩ | ⟨-, hclean⟩
  · generalize hreply : s.store.reply op = reply at he
    generalize (s.store.call op).row u = r at he ⊢
    refine hp.row.effect (Store.coherent (reach_store hr) u) he ?_ ?_
    · rintro w rt rfl due hscheduled
      obtain ⟨-, -, required, supports, phase, hrt⟩ := (served_op (wf_and_store hr).1 ha hop).2
      have hcreated : reply = .create (.created w rt) := by
        cases he
        rfl
      have hentry : Entry.createdWatch ⟨s.store.now, .create w rt, s.store.reply (.create w rt)⟩ =
          some w := by
        rw [Entry.createdWatch, hreply, hcreated]
      rw [hrt] at hscheduled
      obtain ⟨due', hnext, hpaced⟩ :=
        hopens w (List.mem_filterMap.mpr ⟨_, List.mem_cons_self, hentry⟩) ht
      obtain rfl : due' = due := Option.some.inj (hnext.symm.trans hscheduled)
      exact hpaced
    · rintro c nw nr rfl hactive
      obtain ⟨i, input, offset, verdict, plan, -, htask, rfl, rfl⟩ := commit_of_op ha hop
      have hpace := hp.tasks i
      rw [htask] at hpace
      exact (hpace ht).scheduled hactive
  · rw [hrow]
    exact hp.row
  · exact hp.row.cleanup hclean

/-- A claim that is issued when its window is due is on pace. -/
theorem OnPace.issued_call {s : Sys} {u : String} (hr : (sysMachine svc).Reach s)
    (hp : s.OnPace earliest u) {label : SysLabel} (ha : (sysMachine svc).allowed s label) {op : Op}
    (hop : s.op label = some op) {c : WindowClaim} (hc : c ∈ (s.store.call op).issued)
    (hu : c.watch.watchId = u) : c.watch.Paced earliest s.store.now := by
  rcases Store.mem_issued_call hc with hnew | hold
  · obtain ⟨lease, ignoreSchedule, hclaim, hwatch, hruntime, hactive, -, hdue, -⟩ := Store.owned_cases hnew
    have hid := (Store.keyed (Store.lawful_of_served (reach_store hr)) op.target).row.watchId _ hwatch
    rw [hid.symm.trans hu] at hwatch hruntime
    obtain ⟨rt, due, hs⟩ := (Store.coherent (reach_store hr) u).active _ hwatch hactive
    obtain rfl := Option.some.inj (hruntime.symm.trans hs.runtime)
    have hpaced := hp.row _ _ due hwatch hactive hruntime hs.scheduledFor
    -- Only a delivery claims, and it enforces the due time.
    have henforced : ignoreSchedule = false := by
      rw [hclaim] at hop
      obtain ⟨i, -, -, enforceDue, -, htask, rfl⟩ := claim_of_op ha hop
      have hpace := hp.tasks i
      rw [htask] at hpace
      rw [show enforceDue = true from hpace, Bool.not_true]
    exact hpaced.mono (hdue henforced due hs.scheduledFor)
  · exact hp.issued c hold hu

/-- A step of deliveries that enforce due times keeps a watch that supports its deadline on pace. -/
theorem OnPace.exec (hs : svc.schedule.Spaces earliest) {s : Sys} {u : String}
    (hr : (sysMachine svc).Reach s) (hp : s.OnPace earliest u) {label : SysLabel}
    (ha : (sysMachine svc).allowed s label) (hdue : label.EnforcesDue)
    (hopens : ∀ w ∈ ((sysMachine svc).exec label s).store.log.filterMap Entry.createdWatch,
      w.watchId = u → ∃ due, w.nextCheckAt = some due ∧ w.Paced earliest due) :
    ((sysMachine svc).exec label s).OnPace earliest u := by
  have hle : s.store.now ≤ ((sysMachine svc).exec label s).store.now := by
    rcases exec_store svc s label with he | ⟨now, rfl, he⟩ <;> rw [he]
    · cases s.op label <;> exact le_rfl
    · exact ha
  have htasks : ∀ i, (((sysMachine svc).exec label s).tasks i).OnPace earliest u s.store.now := by
    intro i
    rcases tasks_exec ha i with ⟨htask, -⟩ | htask | ⟨hentry, -, hlabel⟩ |
      ⟨input, offset, -, hdraws, hstep⟩
    · rw [htask]
      exact hp.tasks i
    · rw [htask]
      trivial
    · rw [hlabel] at hdue
      generalize ((sysMachine svc).exec label s).tasks i = task at hentry hdue
      cases task <;> first | exact hdue | trivial
    · have hwf := (wf_and_store hr).1 i
      exact hstep.onPace hs hdraws (hp.tasks i)
        (fun c hc => Store.issued_active (Store.lawful_of_served (reach_store hr)) c (hwf.issued hc))
        fun c hc => hp.issued c (hwf.issued hc)
  have hissued : ∀ c ∈ s.store.issued, c.watch.watchId = u →
      c.watch.Paced earliest ((sysMachine svc).exec label s).store.now :=
    fun c hc hu => (hp.issued c hc hu).mono hle
  rcases exec_store svc s label with he | ⟨now, rfl, he⟩
  · cases hop : s.op label with
    | none =>
      have hsame : ((sysMachine svc).exec label s).store = s.store := by rw [he, hop]; rfl
      rw [hsame] at hissued
      exact ⟨by rw [hsame]; exact hp.row, by rw [hsame]; exact hissued, fun i => (htasks i).mono hle,
        by rw [hsame]; exact hp.log⟩
    | some op =>
      have hcall : ((sysMachine svc).exec label s).store = s.store.call op := by rw [he, hop]; rfl
      rw [hcall] at hopens hle
      refine ⟨by rw [hcall]; exact hp.row_call hr ha hop hopens, ?_, fun i => ?_, ?_⟩
      · rw [hcall]
        exact fun c hc hu => hp.issued_call hr ha hop hc hu
      · rw [hcall]
        exact htasks i
      · rw [hcall]
        exact List.forall_mem_cons.mpr ⟨fun w hw hu => hp.expired hr ha hop hw hu, hp.log⟩
  · exact ⟨by rw [he]; exact hp.row, by rw [he] at hissued ⊢; exact hissued,
      fun i => (htasks i).mono hle, by rw [he]; exact hp.log⟩

/-- A deadline-capable watch never runs out of attempts early. Under every accepted choice of settings
and in every run of deliveries that enforce due times, a watch that was opened with a policy that
supports its deadline is committed as expired, by a delivery, a user or recovery, only when less than a
second is left until the deadline. -/
theorem deadline_reached (settings : WatchSettings) {s : Sys}
    (hr : ((sysMachine settings.service).restrict fun _ label => label.EnforcesDue).Reach s) (u : String)
    (hsupports : s.Supports settings.schedule u) :
    ∀ e ∈ s.store.log, ∀ w, e.expired = some w → w.watchId = u →
      w.expiresAt - e.instant < 1000000 := by
  have hpace : s.OnPace settings.schedule.earliestDelayMicroseconds u := by
    refine hr.invariant (P := fun s => s.Supports settings.schedule u →
      s.OnPace settings.schedule.earliestDelayMicroseconds u) ?_ ?_ hsupports
    · rintro s ⟨⟨retention, hmem, hlog⟩, htasks, -⟩ -
      refine ⟨fun w _ _ hw => ?_, fun c hc => ?_, fun i => ?_, fun e he => ?_⟩
      · rw [Store.row, hmem] at hw
        contradiction
      · simp [Store.issued, hlog] at hc
      · rw [htasks i]
        trivial
      · simp [hlog] at he
    · intro s label hr ih ha hsupports
      have hold : s.Supports settings.schedule u :=
        fun w hw => hsupports w (List.filterMap_subset _ (log_exec s label) hw)
      exact (ih hold).exec settings.spaces (.of_restrict hr) ha.1 ha.2
        fun w hw hu => (hsupports w hw hu).paced.2
  exact hpace.log

instance : DecidablePred SysLabel.EnforcesDue := fun label => by
  unfold SysLabel.EnforcesDue
  split <;> infer_instance

/-- Checks every minute, give or take ten seconds, up to a hundred times. -/
def minutely : WatchSettings :=
  ⟨60, 10, 100, 900, by decide, by decide, by decide, by decide, by decide⟩

/-- The budget of ninety seconds: a check at once, and one for each of two delays. -/
def ninetySeconds : AvailabilityPolicy := ⟨3, 3, true, .calendar⟩

/-- A watch for ninety seconds. -/
def shortWatch : Watch × WatchRuntime :=
  openedWatch "w" (Watch.sample "w" false 0 0).query false 0 90000000 ninetySeconds

/-- A run in which two checks find nothing and the third comes at the deadline. -/
def deadlineRun : List SysLabel :=
  [.start 0 (.creating shortWatch.1 shortWatch.2), .resume 0 .proceed 0] ++
    [.start 1 (.claiming "w" "w:0" "a" true), .resume 1 .proceed 0, .resume 1 .proceed 0,
      .resume 1 (.slots []) 0, .resume 1 .proceed 0] ++
    [.tick 60000000, .start 2 (.claiming "w" "w:1" "a" true), .resume 2 .proceed 0,
      .resume 2 .proceed 0, .resume 2 (.slots []) 0, .resume 2 .proceed 0] ++
    [.tick 90000000, .start 3 (.claiming "w" "w:2" "a" true), .resume 3 .proceed 0,
      .resume 3 .proceed 0, .resume 3 .proceed 0]

/-- The service after the run `deadlineRun`. -/
def deadlineSys : Sys := (sysMachine minutely.service).final fresh deadlineRun

/-- After the run `deadlineRun` the watch has expired, with less than a second left. -/
theorem deadline_reached_short : ∃ e ∈ deadlineSys.store.log, ∃ w, e.expired = some w ∧
    w.expiresAt - e.instant < 1000000 := by
  have hr : ((sysMachine minutely.service).restrict fun _ label => label.EnforcesDue).Runs fresh
      deadlineRun := by decide +kernel
  have hreach : ((sysMachine minutely.service).restrict fun _ label => label.EnforcesDue).Reach
      deadlineSys :=
    Machine.Reach.final (M := (sysMachine minutely.service).restrict fun _ label => label.EnforcesDue)
      (.init (fresh_init : (sysMachine minutely.service).init fresh)) hr
  have hopened : deadlineSys.store.log.filterMap Entry.createdWatch = [shortWatch.1] := by
    decide +kernel
  have hsupports : deadlineSys.Supports minutely.schedule "w" := by
    intro w hw _
    rw [hopened, List.mem_singleton] at hw
    exact ⟨_, _, _, _, _, 100, ninetySeconds, by decide +kernel, rfl, hw⟩
  have hexpired : ∃ e ∈ deadlineSys.store.log, ∃ w ∈ e.expired, w.watchId = "w" := by decide +kernel
  obtain ⟨e, he, w, hw, hu⟩ := hexpired
  exact ⟨e, he, w, hw, deadline_reached minutely hreach "w" hsupports e he w hw hu⟩

end Sys

end Dibs
