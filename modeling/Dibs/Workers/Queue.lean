import Dibs.Service.System

/-!
# The in-process queue

`AsyncioTaskQueue` of `backend/workers/queue.py`, wired to the handler that `_build_watch_service` of
`backend/main.py` installs. A publication of a window becomes a job, unless one that is not done has
the same window; when its due time has come the job runs the handler as a coroutine of the service.
The handler takes the watch id only and calls `poll_once`, which claims whatever window is current,
due or not.

Job `k` runs its handler as coroutine `k`. In this mode deliveries come from the queue alone.
-/

namespace Dibs

/-- A task of the queue: a publication that sleeps until its due time. It is not asleep any more when
it runs the handler, or was cancelled. -/
structure Job where
  watchId : String
  windowId : Option String
  dueAt : Time
  asleep : Bool
deriving DecidableEq

/-- `AsyncioTaskQueue`: its tasks, and the last one of each window. -/
structure AsyncioTaskQueue where
  jobs : ℕ → Option Job
  byWindow : Dict String ℕ
  closed : Bool

namespace AsyncioTaskQueue

/-- A new task of the queue. -/
def add (q : AsyncioTaskQueue) (k : ℕ) (job : Job) : AsyncioTaskQueue :=
  { q with jobs := Function.update q.jobs k (some job) }

/-- `enqueue_watch_poll`, with the id of the task that it creates and the tasks that are done. -/
def enqueueWatchPoll (q : AsyncioTaskQueue) (now : Time) (done : ℕ → Bool) (k : ℕ) (watchId : String)
    (windowId : Option String) (delaySeconds : ℚ) (dueAt : Option Time) : AsyncioTaskQueue :=
  if q.closed then q
  else
    let dueAt := dueAt.getD (now + timedelta (max 0 delaySeconds))
    match windowId with
    | none => q.add k ⟨watchId, none, dueAt, true⟩
    | some w =>
      if (q.byWindow.get? w).any fun existing => !done existing then q
      else { q.add k ⟨watchId, some w, dueAt, true⟩ with byWindow := q.byWindow.insert w k }

/-- `_forget_window_for`: what the end of a task does. -/
def forget (q : AsyncioTaskQueue) (k : ℕ) : AsyncioTaskQueue :=
  match (q.jobs k).bind Job.windowId with
  | some w => if q.byWindow.get? w = some k then { q with byWindow := q.byWindow.erase w } else q
  | none => q

/-- A job stops sleeping. -/
def wake (q : AsyncioTaskQueue) (k : ℕ) : AsyncioTaskQueue :=
  { q with jobs := Function.update q.jobs k ((q.jobs k).map fun job => { job with asleep := false }) }

/-- `close`: no job fires any more. -/
def close (q : AsyncioTaskQueue) : AsyncioTaskQueue where
  jobs k := (q.jobs k).map fun job => { job with asleep := false }
  byWindow := .empty
  closed := true

end AsyncioTaskQueue

/-- What a delivery did: the window that it was published for, the instant, and the claim. -/
structure Delivery where
  windowId : Option String
  instant : Time
  claim : WindowClaim
deriving DecidableEq

/-- The service with its queue, and the claims and commits of its deliveries, newest first. -/
structure QueueSys where
  sys : Sys
  queue : AsyncioTaskQueue
  claimed : List Delivery
  committed : List Delivery

/-- A step of the service, or of the queue. -/
inductive QueueLabel
  | sys (label : SysLabel)
  | enqueue (k : ℕ) (watchId windowId : String) (delaySeconds : ℚ) (dueAt : Option Time)
  | fire (k : ℕ) (owner : String)
  | forget (k : ℕ)
  | close

/-- A coroutine that is about to claim. -/
def Task.isDelivery : Task → Bool
  | .resolving _ _ | .fetching _ | .claiming _ _ _ _ => true
  | _ => false

namespace QueueSys

/-- The instant. -/
def now (s : QueueSys) : Time := s.sys.store.now

/-- A job is done when it has run its handler to the end. -/
def done (s : QueueSys) (k : ℕ) : Bool :=
  match s.queue.jobs k, s.sys.tasks k with
  | some job, .idle | some job, .finished _ => !job.asleep
  | some _, _ => false
  | none, _ => true

/-- What a step adds to a list of deliveries, when it is a call of a job. -/
def delivery (s : QueueSys) (select : Entry → Option WindowClaim) : SysLabel → Option Delivery
  | .resume k input offset => do
    let job ← s.queue.jobs k
    let op ← s.sys.op (.resume k input offset)
    let claim ← select ⟨s.now, op, s.sys.store.reply op⟩
    return ⟨job.windowId, s.now, claim⟩
  | _ => none

/-- Coroutines that do not come from the queue are no deliveries. -/
def Outside (s : QueueSys) : SysLabel → Prop
  | .start i task => s.queue.jobs i = none ∧ task.isDelivery = false
  | _ => True

instance (s : QueueSys) : DecidablePred s.Outside := fun label => by
  unfold Outside
  split <;> infer_instance

/-- The handler of a job can start: its due time has come. -/
def Ready (s : QueueSys) (k : ℕ) : Prop :=
  ∃ job, s.queue.jobs k = some job ∧ job.asleep = true ∧ job.dueAt ≤ s.now ∧ s.sys.tasks k = .idle

instance (s : QueueSys) : DecidablePred s.Ready := fun k => by
  unfold Ready
  cases s.queue.jobs k with
  | none => exact isFalse (by simp)
  | some job =>
    exact decidable_of_iff (job.asleep = true ∧ job.dueAt ≤ s.now ∧ s.sys.tasks k = .idle) (by simp)

/-- `_run_at` of a job, once its due time has come: the handler of `_build_watch_service`. -/
def fire (svc : WatchService) (s : QueueSys) (k : ℕ) (owner : String) : QueueSys :=
  match s.queue.jobs k with
  | some job => { s with
      sys := (sysMachine svc).exec (.start k (.resolving job.watchId owner)) s.sys
      queue := s.queue.wake k }
  | none => s

end QueueSys

/-- The machine of the service with its queue. Published windows are those of created watches. -/
def queueMachine (svc : WatchService) : Machine QueueSys QueueLabel where
  init s := (sysMachine svc).init s.sys ∧ s.queue = ⟨fun _ => none, .empty, false⟩ ∧ s.claimed = [] ∧
    s.committed = []
  allowed s
    | .sys label => (sysMachine svc).allowed s.sys label ∧ s.Outside label
    | .enqueue k watchId _ _ _ => s.queue.jobs k = none ∧ s.sys.tasks k = .idle ∧
        watchId ∈ s.sys.store.created
    | .fire k _ => s.Ready k
    | .forget k => s.done k = true
    | .close => True
  exec
    | .sys label, s => { s with
        sys := (sysMachine svc).exec label s.sys
        claimed := (s.delivery Entry.claimed label).toList ++ s.claimed
        committed := (s.delivery Entry.committed label).toList ++ s.committed }
    | .enqueue k watchId windowId delaySeconds dueAt, s => { s with
        queue := s.queue.enqueueWatchPoll s.now s.done k watchId (some windowId) delaySeconds dueAt }
    | .fire k owner, s => s.fire svc k owner
    | .forget k, s => { s with queue := s.queue.forget k }
    | .close, s => { s with queue := s.queue.close }

instance (svc : WatchService) (s : QueueSys) : DecidablePred ((queueMachine svc).allowed s)
  | .sys label => inferInstanceAs (Decidable ((sysMachine svc).allowed s.sys label ∧ s.Outside label))
  | .enqueue k watchId _ _ _ => inferInstanceAs (Decidable
      (s.queue.jobs k = none ∧ s.sys.tasks k = .idle ∧ watchId ∈ s.sys.store.created))
  | .fire k _ => inferInstanceAs (Decidable (s.Ready k))
  | .forget k => inferInstanceAs (Decidable (s.done k = true))
  | .close => inferInstanceAs (Decidable True)

/-- A coroutine is about to claim because `poll_once` has found a window. -/
theorem Task.Step.claiming {svc : WatchService} {s : Store} {offset : ℚ} {task task' : Task}
    {input : Input} {reply : Option Reply} (h : Task.Step svc s offset task input reply task') :
    (∀ u w owner enforceDue, task' = .claiming u w owner enforceDue →
      task = .resolving u owner ∧ enforceDue = false) ∧
    ∀ u owner, task' ≠ .resolving u owner := by
  cases h with
  | resolved =>
    refine ⟨?_, by simp⟩
    rintro u w owner enforceDue ⟨⟩
    exact ⟨rfl, rfl⟩
  | _ => exact ⟨by simp [Task.commit], by simp [Task.commit]⟩

/-- A coroutine that calls `claim_window` is about to claim. -/
theorem Task.claiming_of_op {task : Task} {input : Input} {u w o : String} {lease : Duration}
    {ignoreSchedule : Bool} (h : task.op input = some (.claim u w o lease ignoreSchedule)) :
    ∃ enforceDue, task = .claiming u w o enforceDue ∧ lease = pollLease ∧
      ignoreSchedule = !enforceDue := by
  cases task with
  | claiming u' w' o' enforceDue =>
    obtain ⟨rfl, rfl, rfl, rfl, rfl⟩ := Op.claim.inj (Option.some.inj h)
    exact ⟨enforceDue, rfl, rfl, rfl⟩
  | permitting =>
    simp only [op] at h
    split_ifs at h
    simp at h
  | _ => simp [op] at h

namespace QueueSys

variable {svc : WatchService}

/-- What is recorded of a step. -/
theorem delivery_eq_some {s : QueueSys} {select : Entry → Option WindowClaim} {label : SysLabel}
    {d : Delivery} : s.delivery select label = some d ↔
    ∃ k input offset job op, label = .resume k input offset ∧ s.queue.jobs k = some job ∧
      s.sys.op label = some op ∧ select ⟨s.now, op, s.sys.store.reply op⟩ = some d.claim ∧
      d.windowId = job.windowId ∧ d.instant = s.now := by
  constructor
  · intro h
    cases label with
    | resume k input offset =>
      simp only [delivery, Option.bind_eq_bind, Option.bind_eq_some_iff] at h
      obtain ⟨job, hjob, op, hop, claim, hclaim, hd⟩ := h
      obtain rfl := Option.some.inj hd
      exact ⟨k, input, offset, job, op, rfl, hjob, hop, hclaim, rfl, rfl⟩
    | _ => simp [delivery] at h
  · rintro ⟨k, input, offset, job, op, rfl, hjob, hop, hclaim, hwindow, hinstant⟩
    simp only [delivery, hjob, hop, hclaim, Option.bind_eq_bind, Option.bind_some]
    cases d
    simp_all

/-- What the queue and the service know of each other. -/
structure Inv (s : QueueSys) : Prop where
  /-- Jobs are for created watches. -/
  known : ∀ k job, s.queue.jobs k = some job → job.watchId ∈ s.sys.store.created
  /-- A delivery comes from a job for its watch. -/
  resolving : ∀ k u owner, s.sys.tasks k = .resolving u owner →
    ∃ job, s.queue.jobs k = some job ∧ job.watchId = u
  /-- It claims without asking for the due time. -/
  claiming : ∀ k u w owner enforceDue, s.sys.tasks k = .claiming u w owner enforceDue →
    enforceDue = false ∧ ∃ job, s.queue.jobs k = some job ∧ job.watchId = u
  /-- The claim of a delivery is recorded. -/
  holding : ∀ k c, (s.sys.tasks k).claim = some c → ∃ job, s.queue.jobs k = some job ∧
    ∃ d ∈ s.claimed, d.claim = c ∧ d.windowId = job.windowId
  /-- Every claim of the store is. -/
  issued : ∀ c ∈ s.sys.store.issued, ∃ d ∈ s.claimed, d.claim = c
  /-- The recorded commits are commits of the store. -/
  committed : (s.committed.map Delivery.claim).Sublist s.sys.store.committed
  /-- The delivery that commits a claim is the one that claimed. -/
  attributed : ∀ d ∈ s.committed, ∃ d' ∈ s.claimed, d'.claim = d.claim ∧ d'.windowId = d.windowId

/-- Jobs stay, for their watch and window. -/
def Keeps (q q' : AsyncioTaskQueue) : Prop :=
  ∀ k job, q.jobs k = some job →
    ∃ job', q'.jobs k = some job' ∧ job'.watchId = job.watchId ∧ job'.windowId = job.windowId

/-- A step of the queue that starts no coroutine keeps the invariant, when new jobs are for created
watches. -/
theorem Inv.of_keeps {s : QueueSys} (h : s.Inv) {q : AsyncioTaskQueue} (hq : Keeps s.queue q)
    (hknown : ∀ k job, q.jobs k = some job → job.watchId ∈ s.sys.store.created) :
    ({ s with queue := q } : QueueSys).Inv := by
  refine ⟨hknown, fun k u owner htask => ?_, fun k u w owner enforceDue htask => ?_, fun k c hc => ?_,
    h.issued, h.committed, h.attributed⟩
  · obtain ⟨job, hjob, hid⟩ := h.resolving k u owner htask
    obtain ⟨job', hjob', hid', -⟩ := hq k job hjob
    exact ⟨job', hjob', hid'.trans hid⟩
  · obtain ⟨hdue, job, hjob, hid⟩ := h.claiming k u w owner enforceDue htask
    obtain ⟨job', hjob', hid', -⟩ := hq k job hjob
    exact ⟨hdue, job', hjob', hid'.trans hid⟩
  · obtain ⟨job, hjob, d, hd, hdc, hdw⟩ := h.holding k c hc
    obtain ⟨job', hjob', -, hw'⟩ := hq k job hjob
    exact ⟨job', hjob', d, hd, hdc, hdw.trans hw'.symm⟩

/-- `enqueue_watch_poll` adds at most the one job. -/
theorem enqueue_jobs (q : AsyncioTaskQueue) (now : Time) (done : ℕ → Bool) (k : ℕ) (watchId : String)
    (windowId : Option String) (delaySeconds : ℚ) (dueAt : Option Time) (j : ℕ) :
    (q.enqueueWatchPoll now done k watchId windowId delaySeconds dueAt).jobs j = q.jobs j ∨
      j = k ∧ ∃ job, job.watchId = watchId ∧
        (q.enqueueWatchPoll now done k watchId windowId delaySeconds dueAt).jobs j = some job := by
  unfold AsyncioTaskQueue.enqueueWatchPoll
  dsimp only
  by_cases hj : j = k
  · subst hj
    split_ifs
    · exact .inl rfl
    · split
      · exact .inr ⟨rfl, _, rfl, Function.update_self ..⟩
      · split_ifs
        · exact .inl rfl
        · exact .inr ⟨rfl, _, rfl, Function.update_self ..⟩
  · refine .inl ?_
    split_ifs
    · rfl
    · split
      · exact Function.update_of_ne hj ..
      · split_ifs
        · rfl
        · exact Function.update_of_ne hj ..

/-- Waking a job keeps all jobs. -/
theorem wake_keeps (q : AsyncioTaskQueue) (k : ℕ) : Keeps q (q.wake k) := by
  intro j job hjob
  by_cases hj : j = k
  · subst hj
    exact ⟨{ job with asleep := false }, by simp [AsyncioTaskQueue.wake, hjob], rfl, rfl⟩
  · exact ⟨job, by simp [AsyncioTaskQueue.wake, hj, hjob], rfl, rfl⟩

/-- What was there when a job is waked is there before. -/
theorem jobs_of_wake {q : AsyncioTaskQueue} {k j : ℕ} {job : Job} (h : (q.wake k).jobs j = some job) :
    ∃ job', q.jobs j = some job' ∧ job'.watchId = job.watchId := by
  by_cases hj : j = k
  · subst hj
    simp only [AsyncioTaskQueue.wake, Function.update_self] at h
    obtain ⟨job', hjob', rfl⟩ := Option.map_eq_some_iff.mp h
    exact ⟨job', hjob', rfl⟩
  · simp only [AsyncioTaskQueue.wake, Function.update_of_ne hj] at h
    exact ⟨job, h, rfl⟩

/-- A job that is ready can start its handler. -/
theorem start_allowed {s : QueueSys} (h : s.Inv) {k : ℕ} {job : Job} (hjob : s.queue.jobs k = some job)
    (hready : s.Ready k) (owner : String) :
    (sysMachine svc).allowed s.sys (.start k (.resolving job.watchId owner)) := by
  obtain ⟨job', hjob', -, -, hidle⟩ := hready
  exact ⟨hidle, trivial, h.known k job hjob⟩

end QueueSys

end Dibs
