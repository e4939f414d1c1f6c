import Dibs.Service.Deadline

/-!
# Scheduled times stay inside the lifetime

A delivery reads its clock once, starts its provider sequence only when the watch has time and
attempts left, and computes the due time of a successor from that reading. Two formulas do so, the
jittered interval after a miss and the capped backoff after an outage; both end in a minimum with the
time that is left, and both give up below the floor of one second. So a successor is due at least a
second after the reading (`Plan.Timely`) and not after the watch expires, as long as the cap of the
backoff is not below the floor, which the settings exclude.

A `Mark` is what a run does about this: a clock reading of a delivery, or a successor with the row
that its commit leaves.
-/

namespace Dibs

/-- A delay of a second or more is a second or more in microseconds. -/
theorem second_le_timedelta {delay : ℚ} (h : minDelaySeconds ≤ delay) :
    (1000000 : ℤ) ≤ timedelta delay := by
  have hmicro : ((1000000 : ℤ) : ℚ) ≤ delay * 1000000 := by
    unfold minDelaySeconds at h
    push_cast
    linarith
  exact le_roundHalfEven hmicro

/-- A delay that fits into a duration still fits in microseconds. -/
theorem timedelta_le_of_totalSeconds {delay : ℚ} {d : Duration} (h : delay ≤ totalSeconds d) :
    timedelta delay ≤ d := by
  have hmicro : delay * 1000000 ≤ (d : ℤ) := by
    unfold totalSeconds at h
    rw [le_div_iff₀ (by norm_num)] at h
    exact h
  exact roundHalfEven_le hmicro

/-- The window that a plan schedules is at least a second ahead, not after the watch expires, and at the
instant that the document shows. -/
def Plan.Timely (plan : Plan) (now : Time) : Prop :=
  plan.watch.status = .active → ∃ due, plan.watch.nextCheckAt = some due ∧
    plan.runtime.scheduledFor = some due ∧ now + 1000000 ≤ due ∧ due ≤ plan.watch.expiresAt

/-- A delay between the floor and what is left leads to an instant inside the lifetime. -/
theorem due_within {delay : ℚ} {now expiresAt : Time} (hfloor : minDelaySeconds ≤ delay)
    (hleft : delay ≤ totalSeconds (expiresAt - now)) :
    now + 1000000 ≤ now + timedelta delay ∧ now + timedelta delay ≤ expiresAt := by
  have hlow := second_le_timedelta hfloor
  have hhigh := timedelta_le_of_totalSeconds hleft
  constructor <;> linarith

/-- A miss schedules inside the lifetime: it gives up below the floor. -/
theorem commitMiss_timely (svc : WatchService) (claim : WindowClaim) (now : Time)
    (error : Option String) (offset : ℚ) :
    (commitMiss svc claim now error offset).Timely now := by
  unfold commitMiss
  dsimp only
  split_ifs with hover
  · exact fun h => absurd h (by simp [commitTerminal])
  · have hfloor := not_lt.mp (not_or.mp hover).2
    exact fun _ => ⟨_, rfl, rfl, due_within hfloor (min_le_right ..)⟩

/-- The delay after an outage is between the floor and what is left. -/
theorem outageDelay_within {svc : WatchService} (hcap : minDelaySeconds ≤ svc.backoffMaxSeconds)
    {outages : ℕ} {now : Time} {watch : Watch} {offset delay : ℚ}
    (h : outageDelay svc outages now watch offset = some delay) :
    minDelaySeconds ≤ delay ∧ delay ≤ totalSeconds (watch.expiresAt - now) := by
  unfold outageDelay at h
  dsimp only at h
  split_ifs at h with hremaining
  all_goals
    obtain rfl := Option.some.inj h
    exact ⟨le_min (le_min (le_max_right ..) hcap) (not_lt.mp hremaining), min_le_right ..⟩

/-- An outage schedules inside the lifetime. -/
theorem commitOutage_timely {svc : WatchService} (hcap : minDelaySeconds ≤ svc.backoffMaxSeconds)
    (claim : WindowClaim) (now : Time) (error : String) (offset : ℚ) :
    (commitOutage svc claim now error offset).Timely now := by
  unfold commitOutage
  dsimp only
  split
  · exact fun h => absurd h (by simp [commitTerminal])
  · rename_i delay hdelay
    obtain ⟨hfloor, hleft⟩ := outageDelay_within hcap hdelay
    exact fun _ => ⟨_, rfl, rfl, due_within hfloor hleft⟩

/-- Whatever a check comes to, what is committed schedules inside the lifetime. -/
theorem Verdict.plan_timely {svc : WatchService} (hcap : minDelaySeconds ≤ svc.backoffMaxSeconds)
    (claim : WindowClaim) (now : Time) (offset : ℚ) (verdict : Verdict) :
    (verdict.plan svc claim now offset).Timely now := by
  cases verdict with
  | miss => exact commitMiss_timely svc claim now none offset
  | outage error => exact commitOutage_timely hcap claim now error offset
  | exhausted | found | booked | cancelled =>
    exact fun h => absurd h (by simp [plan, commitTerminal, foundWatch, cancelledWatch])

/-- The settings keep the cap of the backoff above the floor. -/
theorem WatchSettings.floor_le_cap (settings : WatchSettings) :
    minDelaySeconds ≤ settings.service.backoffMaxSeconds := by
  have hback : (1 : ℚ) ≤ settings.providerBackoffMaxSeconds := by
    exact_mod_cast settings.backoff_bounds.1
  exact hback.trans (le_max_left ..)

/-- What a run does about scheduled times. -/
inductive Mark
  /-- A delivery read its clock, and started its provider sequence or not. -/
  | checked (claim : WindowClaim) (now : Time) (starts : Bool)
  /-- A successor window was committed. -/
  | succeeded (claim : WindowClaim) (row : Row)
deriving DecidableEq

/-- A task that awaits the first answer of the provider. -/
def Task.asksProvider : Task → Bool
  | .replaying _ _ | .searching _ _ => true
  | _ => false

/-- A delivery after its clock reading: the reading is marked, and a plan was computed from it. -/
def Task.Reads (svc : WatchService) (l : List Mark) : Task → Prop
  | .replaying c now | .searching c now | .permitting c now _ | .booking c now _ _
  | .checking c now _ | .reconciling c now _ _ => .checked c now true ∈ l
  | .committing c verdict plan => ∃ now starts offset, .checked c now starts ∈ l ∧
      plan = verdict.plan svc c now offset
  | _ => True

/-- A task that reads stays so when more is marked. -/
theorem Task.Reads.mono {svc : WatchService} {l l' : List Mark} {task : Task} (hl : l ⊆ l')
    (h : task.Reads svc l) : task.Reads svc l' := by
  cases task with
  | committing c verdict plan =>
    obtain ⟨now, starts, offset, hmark, hplan⟩ := h
    exact ⟨now, starts, offset, hl hmark, hplan⟩
  | replaying | searching | permitting | booking | checking | reconciling => exact hl h
  | _ => trivial

/-- A step of a delivery computes from the reading that was marked when it was taken. -/
theorem Task.Step.reads {svc : WatchService} {s : Store} {offset : ℚ} {task task' : Task}
    {input : Input} {reply : Option Reply} (h : Task.Step svc s offset task input reply task')
    {l l' : List Mark} (hl : l ⊆ l') (hr : task.Reads svc l)
    (hmark : ∀ c, task = .owning c → .checked c s.now task'.asksProvider ∈ l') :
    task'.Reads svc l' := by
  -- A verdict is committed as the plan that is computed at the reading.
  have hcommit : ∀ {c now verdict}, .checked c now true ∈ l →
      (Task.commit svc offset c now verdict).Reads svc l' :=
    fun hc => ⟨_, true, offset, hl hc, rfl⟩
  cases h with
  | exhausted => exact ⟨_, _, offset, hmark _ rfl, rfl⟩
  | autoBook | monitor => exact hmark _ rfl
  | replayed | nothingFound | found | permitCancelled | booked | cancelRequested | missed | absent
  | confirmed | neverKnown => exact hcommit hr
  | failed hawait =>
    rcases hawait with rfl | rfl | ⟨left, message, rfl⟩ <;> exact hcommit hr
  | overdue hawait =>
    rcases hawait with ⟨slots, rfl⟩ | ⟨slot, rest, rfl⟩ | ⟨error, rfl⟩ <;> exact hcommit hr
  | noReplay | tryBooking | granted | grantedNothing | nextSlot | noSlotLeft | ambiguous
  | definitivelyAbsent | stillUnknown => exact hl hr
  | create | cancelled | notCancelled | expired | notExpired | resolved | unresolved | fetched | legacy
  | owned | unknown | notOwned | reported | permitFenced | released | rescheduled | committed
  | notCommitted | recorded | announced => trivial

/-- A delivery starts its provider sequence only when its watch has time and attempts left. -/
theorem Task.Step.starts {svc : WatchService} {s : Store} {offset : ℚ} {c : WindowClaim} {task' : Task}
    {input : Input} {reply : Option Reply} (h : Task.Step svc s offset (.owning c) input reply task')
    (hasks : task'.asksProvider = true) :
    s.now < c.watch.expiresAt ∧ c.watch.attempts < c.watch.maxAttempts := by
  cases h with
  | exhausted => contradiction
  | autoBook _ hbefore hbelow | monitor _ hbefore hbelow => exact ⟨hbefore, hbelow⟩
  | _ => simp_all

namespace Sys

variable {svc : WatchService}

/-- What a step does about scheduled times. -/
def marks (svc : WatchService) (s : Sys) : SysLabel → Option Mark
  | .resume i input offset =>
    match s.tasks i with
    | .owning c =>
      some (.checked c s.store.now ((s.resume svc i input offset).tasks i).asksProvider)
    | .committing c _ plan =>
      if (s.store.reply (.commit c plan.watch plan.runtime)).isApplied ∧ plan.watch.status = .active then
        some (.succeeded c ((s.store.call (.commit c plan.watch plan.runtime)).row c.watch.watchId))
      else none
    | _ => none
  | _ => none

/-- What a mark says of the step that makes it. -/
theorem marks_cases {s : Sys} {label : SysLabel} {mark : Mark} (h : s.marks svc label = some mark) :
    (∃ i input offset c, label = .resume i input offset ∧ s.tasks i = .owning c ∧
      mark = .checked c s.store.now ((s.resume svc i input offset).tasks i).asksProvider) ∨
    ∃ i input offset c verdict plan, label = .resume i input offset ∧
      s.tasks i = .committing c verdict plan ∧
      (s.store.reply (.commit c plan.watch plan.runtime)).isApplied = true ∧ plan.watch.status = .active ∧
      mark = .succeeded c ((s.store.call (.commit c plan.watch plan.runtime)).row c.watch.watchId) := by
  unfold marks at h
  split at h
  · rename_i i input offset
    split at h
    · rename_i c htask
      exact .inl ⟨i, input, offset, c, rfl, htask, (Option.some.inj h).symm⟩
    · rename_i c verdict plan htask
      split_ifs at h with happ
      exact .inr ⟨i, input, offset, c, verdict, plan, rfl, htask, happ.1, happ.2,
        (Option.some.inj h).symm⟩
    · contradiction
  · contradiction

/-- The successor in a row: due a second after a reading at the earliest and when its watch expires at
the latest, with one instant in the document, the sidecar and the marker. -/
def Successor (u : String) (now : Time) (r : Row) : Prop :=
  ∃ w rt due, r.watch = some w ∧ r.runtime = some rt ∧ w.status = .active ∧
    w.nextCheckAt = some due ∧ rt.scheduledFor = some due ∧
    r.marker = some ⟨u, windowIdFor u rt.cadenceSequence, due⟩ ∧
    now + 1000000 ≤ due ∧ due ≤ w.expiresAt

/-- What is marked along a run is within the lifetime of the watches, and the deliveries compute from
what is marked. -/
structure Timed (svc : WatchService) (s : Sys) (l : List Mark) : Prop where
  /-- Deliveries compute from their marked readings. -/
  tasks : ∀ i, (s.tasks i).Reads svc l
  /-- Provider sequences were started in time and below the ceiling. -/
  starts : ∀ c now, .checked c now true ∈ l →
    now < c.watch.expiresAt ∧ c.watch.attempts < c.watch.maxAttempts
  /-- Successors are within the lifetime. -/
  successors : ∀ c r, .succeeded c r ∈ l →
    ∃ now starts, .checked c now starts ∈ l ∧ Successor c.watch.watchId now r

/-- The row that an applied commit of a timely plan leaves holds the successor. -/
theorem successor_of_commit {s : Store} {c : WindowClaim} {plan : Plan} (hbuilt : Built svc c plan)
    {now : Time} (htimely : plan.Timely now) (hactive : plan.watch.status = .active)
    (happ : (s.reply (.commit c plan.watch plan.runtime)).isApplied = true) :
    Successor c.watch.watchId now ((s.call (.commit c plan.watch plan.runtime)).row c.watch.watchId) := by
  obtain ⟨due, hnext, hscheduled, hlow, hhigh⟩ := htimely hactive
  have hplan : plan.Succeeds c := hbuilt.cases.resolve_right fun hf => hf.status hactive
  obtain ⟨due', outages, hnext', hruntime⟩ := hplan.scheduled
  obtain rfl : due = due' := Option.some.inj (hnext.symm.trans hnext')
  obtain ⟨r, hrow, he⟩ := Store.effect_of_applied happ
  change (s.call _).row c.watch.watchId = r at hrow
  rw [hrow]
  generalize s.reply (.commit c plan.watch plan.runtime) = reply at he
  cases he with
  | reschedule =>
    refine ⟨plan.watch, _, due, rfl, rfl, hactive, hnext, hscheduled, ?_, hlow, hhigh⟩
    simp [Row.reschedule, markerOf, hruntime, successorRuntime]
  | finish _ _ _ _ _ hnew => exact absurd hactive hnew

/-- A step of the service keeps what is marked timed. -/
theorem Timed.exec (hcap : minDelaySeconds ≤ svc.backoffMaxSeconds) {s : Sys} {l : List Mark}
    (h : s.Timed svc l) {label : SysLabel} (ha : (sysMachine svc).allowed s label) :
    ((sysMachine svc).exec label s).Timed svc ((s.marks svc label).toList ++ l) := by
  have hl : l ⊆ (s.marks svc label).toList ++ l := List.subset_append_right ..
  have htasks : ∀ i, (((sysMachine svc).exec label s).tasks i).Reads svc
      ((s.marks svc label).toList ++ l) := by
    intro i
    rcases tasks_exec ha i with ⟨htask, -⟩ | htask | ⟨hentry, -, -⟩ | ⟨input, offset, rfl, -, hstep⟩
    · rw [htask]
      exact (h.tasks i).mono hl
    · rw [htask]
      trivial
    · generalize ((sysMachine svc).exec label s).tasks i = task at hentry
      cases task <;> trivial
    · refine hstep.reads hl (h.tasks i) fun c hc => ?_
      simp only [marks, hc, Option.toList_some, List.singleton_append]
      exact List.mem_cons_self
  cases hmark : s.marks svc label with
  | none =>
    rw [hmark] at htasks
    exact ⟨htasks, h.starts, h.successors⟩
  | some mark =>
    rw [hmark] at htasks hl
    rcases marks_cases hmark with ⟨i, input, offset, c, rfl, htask, rfl⟩ |
        ⟨i, input, offset, c, verdict, plan, rfl, htask, happ, hactive, rfl⟩
    · refine ⟨htasks, fun c' now hc => ?_, fun c' r hc => ?_⟩
      · rcases List.mem_cons.mp hc with heq | hold
        · obtain ⟨rfl, rfl, hasks⟩ := Mark.checked.inj heq
          have hstep := (resume_step ha).2
          rw [htask] at hstep
          exact hstep.starts hasks.symm
        · exact h.starts c' now hold
      · obtain ⟨now, starts, hread, hwithin⟩ := h.successors c' r (by simpa using hc)
        exact ⟨now, starts, hl hread, hwithin⟩
    · refine ⟨htasks, fun c' now hc => h.starts c' now (by simpa using hc), fun c' r hc => ?_⟩
      rcases List.mem_cons.mp hc with heq | hold
      · obtain ⟨rfl, rfl⟩ := Mark.succeeded.inj heq
        have hreads := h.tasks i
        rw [htask] at hreads
        obtain ⟨now, starts, offset', hread, hplan⟩ := hreads
        refine ⟨now, starts, hl hread, successor_of_commit ⟨verdict, now, offset', hplan⟩ ?_ hactive happ⟩
        rw [hplan]
        exact verdict.plan_timely hcap c' now offset'
      · obtain ⟨now, starts, hread, hwithin⟩ := h.successors c' r hold
        exact ⟨now, starts, hl hread, hwithin⟩

/-- Scheduled times stay inside the lifetime. Under every accepted choice of settings and in every run of
the service, a successor window that a delivery commits is due a second after the clock reading of the
delivery or later, and not after the watch expires, with one instant in the document, the sidecar and
the marker; and a delivery starts its provider sequence, the only way to the provider, before the watch
expires and below the ceiling of its attempts. -/
theorem scheduled_within_lifetime (settings : WatchSettings) {s : Sys}
    (hs : (sysMachine settings.service).init s) {labels : List SysLabel}
    (hr : (sysMachine settings.service).Runs s labels) :
    let marks := (sysMachine settings.service).trace (Sys.marks settings.service) s labels
    (∀ c r, .succeeded c r ∈ marks → ∃ now starts, .checked c now starts ∈ marks ∧
      Successor c.watch.watchId now r) ∧
    (∀ c now, .checked c now true ∈ marks →
      now < c.watch.expiresAt ∧ c.watch.attempts < c.watch.maxAttempts) ∧
    ∀ i c now, (((sysMachine settings.service).final s labels).tasks i = .replaying c now ∨
      ((sysMachine settings.service).final s labels).tasks i = .searching c now) →
      .checked c now true ∈ marks := by
  have htimed : ((sysMachine settings.service).final s labels).Timed settings.service
      ((sysMachine settings.service).trace (Sys.marks settings.service) s labels) := by
    refine Machine.trace_invariant (P := fun s l => s.Timed settings.service l) ?_ ?_ hs hr
    · rintro s ⟨-, htasks, -⟩
      refine ⟨fun i => ?_, by simp, by simp⟩
      rw [htasks i]
      trivial
    · exact fun s l label _ ih ha => ih.exec settings.floor_le_cap ha
  refine ⟨htimed.successors, htimed.starts, fun i c now htask => ?_⟩
  have hreads := htimed.tasks i
  rcases htask with htask | htask
  · rw [htask] at hreads
    exact hreads
  · rw [htask] at hreads
    exact hreads

/-- What the run `deadlineRun` does about scheduled times. -/
def deadlineMarks : List Mark :=
  (sysMachine minutely.service).trace (Sys.marks minutely.service) fresh deadlineRun

/-- In the run `deadlineRun` a successor is committed inside the lifetime, and a provider sequence is
started in time. -/
theorem scheduled_within_lifetime_deadlineRun :
    (∃ c r, .succeeded c r ∈ deadlineMarks ∧ ∃ now, Successor c.watch.watchId now r) ∧
    ∃ c now, .checked c now true ∈ deadlineMarks ∧ now < c.watch.expiresAt := by
  have hr : (sysMachine minutely.service).Runs fresh deadlineRun := by decide +kernel
  obtain ⟨hsuccessors, hstarts, -⟩ := scheduled_within_lifetime minutely fresh_init hr
  have hsucceeded : ∃ mark ∈ deadlineMarks, (mark matches .succeeded _ _) = true := by decide +kernel
  have hchecked : ∃ mark ∈ deadlineMarks,
      (match mark with | .succeeded _ _ => false | .checked _ _ starts => starts) = true := by
    decide +kernel
  constructor
  · obtain ⟨mark, hmem, hmatch⟩ := hsucceeded
    cases mark with
    | checked => contradiction
    | succeeded c r =>
      obtain ⟨now, -, -, hwithin⟩ := hsuccessors c r hmem
      exact ⟨c, r, hmem, now, hwithin⟩
  · obtain ⟨mark, hmem, hmatch⟩ := hchecked
    cases mark with
    | succeeded => contradiction
    | checked c now starts =>
      have htrue : starts = true := hmatch
      subst htrue
      exact ⟨c, now, hmem, (hstarts c now hmem).1⟩

end Sys

end Dibs
