import Dibs.Service.Coherence
import Dibs.Service.Delivery

/-!
# The watch service over one in-memory store

Any number of coroutines of the watch service, interleaved at their awaits over one store. A label
starts a coroutine, takes it to its next await, ends it where it stands (a crash, or an exception
that the service does not catch), makes one of the other store calls of a recovery pass, or moves the
clock. The provider is arbitrary: what it answers is part of the label.

Each step makes at most one call of the store and the calls are served ones, so the runs of the
service are runs of the store (`reach_store`).
-/

namespace Dibs

/-- A notification that was sent. -/
structure Notice where
  watch : Watch
  event : WatchEvent
deriving DecidableEq

/-- A window that was handed to the queue. -/
structure Publication where
  watchId : String
  windowId : Option String
  delaySeconds : ℚ
  dueAt : Time
deriving DecidableEq

/-- A record that was handed to the history projection. -/
structure HistoryRecord where
  watch : Watch
  revision : ℕ
deriving DecidableEq

/-- The notification that a task sends in its next step. -/
def Task.notice : Task → Option Notice
  | .announcing watch (.notify event) _ => some ⟨watch, event⟩
  | _ => none

/-- The window that a task publishes in its next step. -/
def Task.publication : Task → Option Publication
  | .announcing watch (.publish windowId delay dueAt) _ => some ⟨watch.watchId, windowId, delay, dueAt⟩
  | _ => none

/-- The record that a task makes in its next step. -/
def Task.record : Task → Option HistoryRecord
  | .recording watch revision _ _ => some ⟨watch, revision⟩
  | _ => none

/-- The claim that a delivery works on. -/
def Task.claim : Task → Option WindowClaim
  | .owning c | .replaying c _ | .searching c _ | .permitting c _ _ | .booking c _ _ _
  | .checking c _ _ | .reconciling c _ _ _ | .releasing c | .committing c _ _ => some c
  | _ => none

/-- How a coroutine may start. -/
def Task.Entry : Task → Prop
  | .creating watch runtime => (Op.create watch runtime).Served
  | .cancelling _ | .expiring _ | .resolving _ _ | .claiming _ _ _ _ => True
  | _ => False

/-- A delivery that does not name its window is for a watch that was created: ids reach the queue after
`create_with_schedule`. -/
def Task.Known (s : Store) : Task → Prop
  | .resolving u _ => u ∈ s.created
  | _ => True

/-- The store calls that a recovery pass makes itself: it expires a watch when it has no service,
repairs markers, dispatches and cleans up. -/
def Op.Maintenance : Op → Prop
  | .expire _ none false | .synthesize _ _ | .claimDispatch _ _ _ | .markDispatched _ _
  | .releaseDispatch _ | .cleanup _ _ => True
  | _ => False

/-- The state of the service: the store, the coroutines, and what they have sent, newest first. -/
structure Sys where
  store : Store
  tasks : ℕ → Task
  sent : List Notice
  published : List Publication
  records : List HistoryRecord

/-- A step of the service. -/
inductive SysLabel
  | tick (now : Time)
  | start (i : ℕ) (task : Task)
  | resume (i : ℕ) (input : Input) (offset : ℚ)
  | crash (i : ℕ)
  | maintain (op : Op)
deriving DecidableEq

/-- The coroutine that a step is about. -/
def SysLabel.task : SysLabel → Option ℕ
  | .start i _ | .resume i _ _ | .crash i => some i
  | .tick _ | .maintain _ => none

namespace Store

/-- The store after a call, if there is one. -/
def after (s : Store) : Option Op → Store
  | none => s
  | some op => s.call op

end Store

namespace Sys

open Function (update)

/-- The call of the store that a step makes. -/
def op (s : Sys) : SysLabel → Option Op
  | .resume i input _ => (s.tasks i).op input
  | .maintain op => some op
  | _ => none

/-- The next await of a coroutine, when the input is one that it can get there. -/
def next (svc : WatchService) (s : Sys) (i : ℕ) (input : Input) (offset : ℚ) : Option Task :=
  (s.tasks i).next svc s.store input offset (((s.tasks i).op input).map s.store.reply)

/-- The state after a coroutine is taken to its next await. -/
def resume (svc : WatchService) (s : Sys) (i : ℕ) (input : Input) (offset : ℚ) : Sys where
  store := s.store.after ((s.tasks i).op input)
  tasks := update s.tasks i ((s.next svc i input offset).getD (s.tasks i))
  sent := (s.tasks i).notice.toList ++ s.sent
  published := (s.tasks i).publication.toList ++ s.published
  records := (s.tasks i).record.toList ++ s.records

end Sys

instance (watch : Watch) (runtime : WatchRuntime) : Decidable (Op.create watch runtime).Served :=
  decidable_of_iff (watch.status = .active ∧ watch.nextCheckAt ≠ none ∧
    runtime = initialRuntime watch runtime.requiredAttempts runtime.supportsDeadline runtime.phase)
    ⟨fun ⟨ha, hn, he⟩ => ⟨ha, hn, _, _, _, he⟩,
      fun ⟨ha, hn, _, _, _, he⟩ => ⟨ha, hn, by subst he; rfl⟩⟩

instance : DecidablePred Task.Entry
  | .creating watch runtime => inferInstanceAs (Decidable (Op.create watch runtime).Served)
  | .cancelling _ | .expiring _ | .resolving _ _ | .claiming _ _ _ _ =>
    inferInstanceAs (Decidable True)
  | .idle | .fetching _ | .legacy _ | .reporting _ | .owning _ | .replaying _ _ | .searching _ _
  | .permitting _ _ _ | .booking _ _ _ _ | .checking _ _ _ | .reconciling _ _ _ _ | .releasing _
  | .committing _ _ _ | .recording _ _ _ _ | .announcing _ _ _ | .finished _ =>
    inferInstanceAs (Decidable False)

instance (s : Store) (task : Task) : Decidable (task.Known s) := by
  unfold Task.Known
  split <;> infer_instance

instance : DecidablePred Op.Maintenance := fun op => by
  unfold Op.Maintenance
  split <;> infer_instance

/-- The watch that a task creates is new. -/
def Task.Unused (s : Store) : Task → Prop
  | .creating watch _ => watch.watchId ∉ s.created
  | _ => True

instance (s : Store) (task : Task) : Decidable (task.Unused s) := by
  unfold Task.Unused
  split <;> infer_instance

/-- The machine of the service. A created id is fresh, as `uuid4` makes it. -/
def sysMachine (svc : WatchService) : Machine Sys SysLabel where
  init s := (∃ retention, s.store.mem = .empty retention ∧ s.store.log = []) ∧
    (∀ i, s.tasks i = .idle) ∧ s.sent = [] ∧ s.published = [] ∧ s.records = []
  allowed s
    | .tick now => s.store.now ≤ now
    | .start i task => s.tasks i = .idle ∧ task.Entry ∧ task.Known s.store
    | .resume i input offset => svc.schedule.Draws offset ∧
        (∃ task, s.next svc i input offset = some task) ∧ (s.tasks i).Unused s.store
    | .crash _ => True
    | .maintain op => op.Maintenance
  exec
    | .tick now, s => { s with store := { s.store with now := now } }
    | .start i task, s => { s with tasks := Function.update s.tasks i task }
    | .resume i input offset, s => s.resume svc i input offset
    | .crash i, s => { s with tasks := Function.update s.tasks i .idle }
    | .maintain op, s => { s with store := s.store.call op }

instance (svc : WatchService) (s : Sys) : DecidablePred ((sysMachine svc).allowed s)
  | .tick now => inferInstanceAs (Decidable (s.store.now ≤ now))
  | .start i task => inferInstanceAs (Decidable (s.tasks i = .idle ∧ task.Entry ∧ task.Known s.store))
  | .resume i input offset =>
    have : Decidable (∃ task, s.next svc i input offset = some task) :=
      decidable_of_iff ((s.next svc i input offset).isSome = true) Option.isSome_iff_exists
    inferInstanceAs (Decidable
      ((_ ≤ offset ∧ offset ≤ _) ∧ (∃ task, s.next svc i input offset = some task) ∧
        (s.tasks i).Unused s.store))
  | .crash _ => inferInstanceAs (Decidable True)
  | .maintain op => inferInstanceAs (Decidable op.Maintenance)

/-- A task is well formed over a store: the claims it holds were issued, the plan it commits is one
the service built, and what it creates is a fresh watch. -/
def Task.Wf (svc : WatchService) (s : Store) : Task → Prop
  | .creating watch runtime => (Op.create watch runtime).Served
  | .owning c | .replaying c _ | .searching c _ | .permitting c _ _ | .booking c _ _ _
  | .checking c _ _ | .reconciling c _ _ _ | .releasing c => c ∈ s.issued
  | .committing c verdict plan => c ∈ s.issued ∧
      ∃ now offset, plan = verdict.plan svc c now offset
  | _ => True

/-- A well formed task stays so when more claims are issued. -/
theorem Task.Wf.mono {svc : WatchService} {s s' : Store} {task : Task}
    (h : ∀ c ∈ s.issued, c ∈ s'.issued) (hwf : task.Wf svc s) : task.Wf svc s' := by
  cases task with
  | committing c verdict plan => exact ⟨h c hwf.1, hwf.2⟩
  | creating | idle | cancelling | expiring | resolving | fetching | legacy | claiming | reporting
  | recording | announcing | finished => exact hwf
  | _ => exact h _ hwf

/-- The claim of a well formed task was issued. -/
theorem Task.Wf.issued {svc : WatchService} {s : Store} {task : Task} (h : task.Wf svc s)
    {c : WindowClaim} (hc : task.claim = some c) : c ∈ s.issued := by
  cases task with
  | committing => exact Option.some.inj hc ▸ h.1
  | owning | replaying | searching | permitting | booking | checking | reconciling | releasing =>
    exact Option.some.inj hc ▸ h
  | _ => contradiction

/-- A step takes a well formed task to a well formed one. -/
theorem Task.Step.wf {svc : WatchService} {s s' : Store} {offset : ℚ} {task task' : Task}
    {input : Input} {reply : Option Reply} (h : Task.Step svc s offset task input reply task')
    (hwf : task.Wf svc s) (hmono : ∀ c ∈ s.issued, c ∈ s'.issued)
    (howned : ∀ c, reply = some (.claim (.owned c)) → c ∈ s'.issued) : task'.Wf svc s' := by
  -- Every verdict is committed as the plan that the service builds for it.
  have hcommit : ∀ {c now verdict}, c ∈ s.issued → (Task.commit svc offset c now verdict).Wf svc s' :=
    fun hc => ⟨hmono _ hc, _, offset, rfl⟩
  cases h with
  | owned => exact howned _ rfl
  | exhausted | replayed | nothingFound | found | permitCancelled | booked | cancelRequested
  | missed | absent | confirmed | neverKnown => exact hcommit hwf
  | failed hawait =>
    rcases hawait with rfl | rfl | ⟨left, message, rfl⟩ <;> exact hcommit hwf
  | overdue hawait =>
    rcases hawait with ⟨slots, rfl⟩ | ⟨slot, rest, rfl⟩ | ⟨error, rfl⟩ <;> exact hcommit hwf
  | autoBook | monitor | noReplay | tryBooking | granted | grantedNothing | permitFenced | nextSlot
  | noSlotLeft | ambiguous | definitivelyAbsent | stillUnknown => exact hmono _ hwf
  | create | cancelled | notCancelled | expired | notExpired | resolved | unresolved | fetched | legacy
  | unknown | notOwned | reported | released | rescheduled | committed | notCommitted | recorded
  | announced => trivial

/-- A coroutine has a claim because it had it before, or has just got it. -/
theorem Task.Step.claim {svc : WatchService} {s : Store} {offset : ℚ} {task task' : Task}
    {input : Input} {reply : Option Reply} (h : Task.Step svc s offset task input reply task')
    {c : WindowClaim} (hc : task'.claim = some c) :
    task.claim = some c ∨ reply = some (.claim (.owned c)) := by
  cases h with
  | owned =>
    obtain rfl := Option.some.inj hc
    exact .inr rfl
  | failed hawait =>
    rcases hawait with rfl | rfl | ⟨left, message, rfl⟩ <;> exact .inl hc
  | overdue hawait =>
    rcases hawait with ⟨slots, rfl⟩ | ⟨slot, rest, rfl⟩ | ⟨error, rfl⟩ <;> exact .inl hc
  | _ => first | exact .inl hc | contradiction

/-- A task is settled: a delivery that has not found a window yet is for a created watch, and once it
has found that there is none the watch is not active. -/
def Task.Settled (s : Store) : Task → Prop
  | .resolving u _ => u ∈ s.created
  | .fetching u => u ∈ s.created ∧ ∀ w, (s.row u).watch = some w → w.status ≠ .active
  | .legacy _ => False
  | _ => True

/-- A step takes a settled task to a settled one. -/
theorem Task.Step.settled {svc : WatchService} {s : Store} {offset : ℚ} {task task' : Task}
    {input : Input} {reply : Option Reply} (h : Task.Step svc s offset task input reply task')
    (hs : task.Settled s) (hco : ∀ u, (s.row u).Coherent u) : task'.Settled s := by
  cases h with
  | @unresolved u owner _ _ hwindow =>
    refine ⟨hs, fun w hw hactive => ?_⟩
    -- An active watch is on a window.
    obtain ⟨rt, due, hrt⟩ := (hco u).active w hw hactive
    rw [hrt.runtime] at hwindow
    exact absurd (hrt.windowId.symm.trans hwindow) (by simp)
  | legacy hwatch hactive => exact hs.2 _ hwatch hactive
  | _ => trivial

namespace Sys

variable {svc : WatchService}

/-- A coroutine that is resumed takes one of its steps. -/
theorem resume_step {s : Sys} {i : ℕ} {input : Input} {offset : ℚ}
    (ha : (sysMachine svc).allowed s (.resume i input offset)) :
    svc.schedule.Draws offset ∧
      Task.Step svc s.store offset (s.tasks i) input (((s.tasks i).op input).map s.store.reply)
        (((sysMachine svc).exec (.resume i input offset) s).tasks i) := by
  obtain ⟨hdraws, ⟨task, hnext⟩, -⟩ := ha
  have htask : ((sysMachine svc).exec (.resume i input offset) s).tasks i = task := by
    change Function.update s.tasks i ((s.next svc i input offset).getD (s.tasks i)) i = task
    rw [Function.update_self, hnext]
    rfl
  rw [htask]
  exact ⟨hdraws, Task.next_step hnext⟩

/-- Everything a step can do to one coroutine: it leaves it alone, ends it, starts it, or takes it to
its next await. -/
theorem tasks_exec {s : Sys} {label : SysLabel} (ha : (sysMachine svc).allowed s label) (j : ℕ) :
    (((sysMachine svc).exec label s).tasks j = s.tasks j ∧ label.task ≠ some j) ∨
    ((sysMachine svc).exec label s).tasks j = .idle ∨
    (((sysMachine svc).exec label s).tasks j).Entry ∧
      (((sysMachine svc).exec label s).tasks j).Known s.store ∧
      label = .start j (((sysMachine svc).exec label s).tasks j) ∨
    ∃ input offset, label = .resume j input offset ∧ svc.schedule.Draws offset ∧
      Task.Step svc s.store offset (s.tasks j) input (((s.tasks j).op input).map s.store.reply)
        (((sysMachine svc).exec label s).tasks j) := by
  cases label with
  | tick | maintain => exact .inl ⟨rfl, by simp [SysLabel.task]⟩
  | start i task =>
    by_cases h : j = i
    · subst h
      have htask : ((sysMachine svc).exec (.start j task) s).tasks j = task := Function.update_self ..
      rw [htask]
      exact .inr (.inr (.inl ⟨ha.2.1, ha.2.2, rfl⟩))
    · exact .inl ⟨Function.update_of_ne h .., by simpa [SysLabel.task] using Ne.symm h⟩
  | crash i =>
    by_cases h : j = i
    · subst h
      exact .inr (.inl (Function.update_self ..))
    · exact .inl ⟨Function.update_of_ne h .., by simpa [SysLabel.task] using Ne.symm h⟩
  | resume i input offset =>
    by_cases h : j = i
    · subst h
      obtain ⟨hdraws, hstep⟩ := resume_step ha
      exact .inr (.inr (.inr ⟨input, offset, rfl, hdraws, hstep⟩))
    · exact .inl ⟨Function.update_of_ne h .., by simpa [SysLabel.task] using Ne.symm h⟩

/-- The store call of a step is a served one. -/
theorem served_op {s : Sys} (hwf : ∀ i, (s.tasks i).Wf svc s.store) {label : SysLabel}
    (ha : (sysMachine svc).allowed s label) {op : Op} (hop : s.op label = some op) :
    Served s.store op := by
  cases label with
  | tick | start | crash => simp [Sys.op] at hop
  | maintain op' =>
    obtain rfl : op' = op := by simpa [Sys.op] using hop
    have hm : op'.Maintenance := ha
    cases op' with
    | expire | synthesize | claimDispatch | markDispatched | releaseDispatch | cleanup =>
      exact ⟨⟨trivial, trivial⟩, trivial⟩
    | create | claim | begin | commit | cancel | release => exact absurd hm id
  | resume i input offset =>
    obtain ⟨-, -, hfresh⟩ := ha
    have hw := hwf i
    simp only [Sys.op] at hop
    cases htask : s.tasks i with
    | creating watch runtime =>
      rw [htask] at hop hw
      obtain rfl := Option.some.inj hop
      rw [htask] at hfresh
      exact ⟨⟨trivial, fun _ => hfresh⟩, hw⟩
    | cancelling | expiring | claiming =>
      rw [htask] at hop
      obtain rfl := Option.some.inj hop
      exact ⟨⟨trivial, trivial⟩, trivial⟩
    | permitting c now slots =>
      rw [htask] at hop hw
      simp only [Task.op] at hop
      split_ifs at hop
      obtain rfl := Option.some.inj hop
      exact ⟨⟨hw, trivial⟩, trivial⟩
    | releasing c =>
      rw [htask] at hop hw
      obtain rfl := Option.some.inj hop
      exact ⟨⟨hw, trivial⟩, trivial⟩
    | committing c verdict plan =>
      rw [htask] at hop hw
      obtain rfl := Option.some.inj hop
      obtain ⟨hc, now, offset, hplan⟩ := hw
      have hbuilt : Built svc c plan := ⟨verdict, now, offset, hplan⟩
      exact ⟨⟨⟨hc, hbuilt.watchId⟩, trivial⟩, svc, plan, hbuilt, rfl, rfl⟩
    | _ =>
      rw [htask] at hop
      simp [Task.op] at hop

/-- The call of a delivery at `commit_window`. -/
theorem op_committing {s : Sys} {i : ℕ} {c : WindowClaim} {verdict : Verdict} {plan : Plan}
    (h : s.tasks i = .committing c verdict plan) (input : Input) (offset : ℚ) :
    s.op (.resume i input offset) = some (.commit c plan.watch plan.runtime) := by
  simp only [Sys.op, h, Task.op]

/-- The call of a step that commits a window is the one of a delivery at `commit_window`. -/
theorem commit_of_op {s : Sys} {label : SysLabel} (ha : (sysMachine svc).allowed s label)
    {c : WindowClaim} {nw : Watch} {nr : WatchRuntime} (h : s.op label = some (.commit c nw nr)) :
    ∃ i input offset verdict plan, label = .resume i input offset ∧
      s.tasks i = .committing c verdict plan ∧ nw = plan.watch ∧ nr = plan.runtime := by
  cases label with
  | tick | start | crash => simp [Sys.op] at h
  | maintain op =>
    obtain rfl := Option.some.inj h
    exact absurd ha id
  | resume i input offset =>
    simp only [Sys.op] at h
    cases htask : s.tasks i with
    | committing c' verdict plan =>
      rw [htask] at h
      obtain ⟨rfl, rfl, rfl⟩ := Op.commit.inj (Option.some.inj h)
      exact ⟨i, input, offset, verdict, plan, rfl, htask, rfl, rfl⟩
    | permitting =>
      rw [htask] at h
      simp only [Task.op] at h
      split_ifs at h
      simp at h
    | _ =>
      rw [htask] at h
      simp [Task.op] at h

/-- The call of a step that claims a window is the one of a delivery at `claim_window`. -/
theorem claim_of_op {s : Sys} {label : SysLabel} (ha : (sysMachine svc).allowed s label)
    {u w o : String} {lease : Duration} {ignoreSchedule : Bool}
    (h : s.op label = some (.claim u w o lease ignoreSchedule)) :
    ∃ i input offset enforceDue, label = .resume i input offset ∧
      s.tasks i = .claiming u w o enforceDue ∧ ignoreSchedule = !enforceDue := by
  cases label with
  | tick | start | crash => simp [Sys.op] at h
  | maintain op =>
    obtain rfl := Option.some.inj h
    exact absurd ha id
  | resume i input offset =>
    simp only [Sys.op] at h
    cases htask : s.tasks i with
    | claiming u' w' o' enforceDue =>
      rw [htask] at h
      obtain ⟨rfl, rfl, rfl, -, rfl⟩ := Op.claim.inj (Option.some.inj h)
      exact ⟨i, input, offset, enforceDue, rfl, htask, rfl⟩
    | permitting =>
      rw [htask] at h
      simp only [Task.op] at h
      split_ifs at h
      simp at h
    | _ =>
      rw [htask] at h
      simp [Task.op] at h

/-- A step expires a watch only when its time or its attempts are over. -/
theorem expire_of_op {s : Sys} {label : SysLabel} (ha : (sysMachine svc).allowed s label) {u : String}
    {expected : Option ℕ} {force : Bool} (h : s.op label = some (.expire u expected force)) :
    expected = none ∧ force = false := by
  cases label with
  | tick | start | crash => simp [Sys.op] at h
  | maintain op =>
    obtain rfl := Option.some.inj h
    have hm : (Op.expire u expected force).Maintenance := ha
    unfold Op.Maintenance at hm
    split at hm <;> simp_all
  | resume i input offset =>
    simp only [Sys.op] at h
    cases htask : s.tasks i with
    | expiring v =>
      rw [htask] at h
      obtain ⟨-, rfl, rfl⟩ := Op.expire.inj (Option.some.inj h)
      exact ⟨rfl, rfl⟩
    | permitting =>
      rw [htask] at h
      simp only [Task.op] at h
      split_ifs at h
      simp at h
    | _ =>
      rw [htask] at h
      simp [Task.op] at h

/-- The store after a step: the clock has moved, or at most one call was made. -/
theorem exec_store (svc : WatchService) (s : Sys) (label : SysLabel) :
    ((sysMachine svc).exec label s).store = s.store.after (s.op label) ∨
      ∃ now, label = .tick now ∧ ((sysMachine svc).exec label s).store = { s.store with now := now } := by
  cases label with
  | tick now => exact .inr ⟨now, rfl, rfl⟩
  | start | crash | maintain | resume => exact .inl rfl

/-- The store after a step that makes a call. -/
theorem store_of_op {s : Sys} {label : SysLabel} {op : Op} (h : s.op label = some op) :
    ((sysMachine svc).exec label s).store = s.store.call op := by
  rcases exec_store svc s label with he | ⟨now, rfl, -⟩
  · rw [he, h]
    rfl
  · contradiction

/-- The log only grows. -/
theorem log_exec (s : Sys) (label : SysLabel) :
    s.store.log ⊆ ((sysMachine svc).exec label s).store.log := by
  rcases exec_store svc s label with he | ⟨now, -, he⟩ <;> rw [he]
  · cases s.op label with
    | none => exact fun e h => h
    | some op => exact fun e h => List.mem_cons_of_mem _ h
  · exact fun e h => h

/-- A claim stays issued over a step. -/
theorem issued_exec (s : Sys) (label : SysLabel) {c : WindowClaim} (hc : c ∈ s.store.issued) :
    c ∈ ((sysMachine svc).exec label s).store.issued := by
  rcases exec_store svc s label with h | ⟨now, -, h⟩ <;> rw [h]
  · cases s.op label with
    | none => exact hc
    | some op => exact Store.issued_call op hc
  · exact hc

/-- A step keeps the tasks well formed. -/
theorem wf_exec {s : Sys} (hwf : ∀ i, (s.tasks i).Wf svc s.store) {label : SysLabel}
    (ha : (sysMachine svc).allowed s label) (i : ℕ) :
    (((sysMachine svc).exec label s).tasks i).Wf svc ((sysMachine svc).exec label s).store := by
  have hmono : ∀ c ∈ s.store.issued, c ∈ ((sysMachine svc).exec label s).store.issued :=
    fun c hc => issued_exec s label hc
  rcases tasks_exec ha i with ⟨htask, -⟩ | htask | ⟨hentry, -, -⟩ | ⟨input, offset, rfl, -, hstep⟩
  · rw [htask]
    exact (hwf i).mono hmono
  · rw [htask]
    trivial
  · generalize ((sysMachine svc).exec label s).tasks i = task at hentry
    cases task with
    | creating | cancelling | expiring | resolving | claiming => exact hentry
    | _ => exact absurd hentry id
  · refine hstep.wf (hwf i) hmono fun c hc => ?_
    obtain ⟨op, hop, hreply⟩ := Option.map_eq_some_iff.mp hc
    -- The claim is the reply of the call that the step logs.
    change c ∈ (s.store.after ((s.tasks i).op input)).issued
    rw [hop]
    have hclaimed : Entry.claimed ⟨s.store.now, op, s.store.reply op⟩ = some c := by
      rw [hreply]
      rfl
    exact List.mem_filterMap.mpr ⟨_, List.mem_cons_self, hclaimed⟩

/-- In every reachable state of the service the tasks are well formed, and the store is in a state
that served calls reach. -/
theorem wf_and_store {s : Sys} (h : (sysMachine svc).Reach s) :
    (∀ i, (s.tasks i).Wf svc s.store) ∧ (storeMachine Served).Reach s.store := by
  refine h.invariant (P := fun s => (∀ i, (s.tasks i).Wf svc s.store) ∧
    (storeMachine Served).Reach s.store) ?_ ?_
  · rintro s ⟨hstore, htasks, -⟩
    refine ⟨fun i => ?_, .init hstore⟩
    rw [htasks i]
    trivial
  · rintro s label - ⟨hwf, hr⟩ ha
    refine ⟨wf_exec hwf ha, ?_⟩
    rcases exec_store svc s label with he | ⟨now, rfl, he⟩ <;> rw [he]
    · cases hop : s.op label with
      | none => exact hr
      | some op => exact hr.step (M := storeMachine Served) (.call op) (served_op hwf ha hop)
    · exact hr.step (M := storeMachine Served) (.tick now) ha

/-- The runs of the service are runs of the store under served calls. -/
theorem reach_store {s : Sys} (h : (sysMachine svc).Reach s) : (storeMachine Served).Reach s.store :=
  (wf_and_store h).2

/-- A document that is not active stays, until a cleanup removes it. -/
theorem inactive_exec {s : Sys} (hr : (sysMachine svc).Reach s) {label : SysLabel}
    (ha : (sysMachine svc).allowed s label) {u : String} (hu : u ∈ s.store.created)
    (h : ∀ w, (s.store.row u).watch = some w → w.status ≠ .active) :
    (((sysMachine svc).exec label s).store.row u).watch = (s.store.row u).watch ∨
      ((((sysMachine svc).exec label s).store.row u).watch = none ∧
        ∃ op, s.op label = some op ∧ op.isCleanup = true) := by
  rcases exec_store svc s label with he | ⟨now, -, he⟩ <;> rw [he]
  · cases hop : s.op label with
    | none => exact .inl rfl
    | some op =>
      have hserved := served_op (wf_and_store hr).1 ha hop
      exact (Store.inactive_call hserved.1 hu h).imp_right fun ⟨hnone, hclean⟩ => ⟨hnone, op, rfl, hclean⟩
  · exact .inl rfl

/-- Created ids stay created. -/
theorem created_exec {s : Sys} {label : SysLabel} {u : String} (hu : u ∈ s.store.created) :
    u ∈ ((sysMachine svc).exec label s).store.created := by
  rcases exec_store svc s label with he | ⟨now, -, he⟩ <;> rw [he]
  · cases s.op label with
    | none => exact hu
    | some op => exact Store.created_call op hu
  · exact hu

/-- A step keeps the tasks settled. -/
theorem settled_exec {s : Sys} (hr : (sysMachine svc).Reach s) (hs : ∀ i, (s.tasks i).Settled s.store)
    {label : SysLabel} (ha : (sysMachine svc).allowed s label) (i : ℕ) :
    (((sysMachine svc).exec label s).tasks i).Settled ((sysMachine svc).exec label s).store := by
  -- What is settled in the store before the step is so after it.
  have hmono : ∀ {task : Task}, task.Settled s.store →
      task.Settled ((sysMachine svc).exec label s).store := by
    intro task h
    cases task with
    | resolving u owner => exact created_exec h
    | fetching u =>
      refine ⟨created_exec h.1, fun w hw => ?_⟩
      rcases inactive_exec hr ha h.1 h.2 with hwatch | ⟨hwatch, -⟩
      · exact h.2 w (hwatch ▸ hw)
      · exact absurd (hwatch.symm.trans hw) (by simp)
    | legacy => exact h
    | _ => trivial
  rcases tasks_exec ha i with ⟨htask, -⟩ | htask | ⟨hentry, hknown, -⟩ | ⟨input, offset, -, -, hstep⟩
  · rw [htask]
    exact hmono (hs i)
  · rw [htask]
    trivial
  · refine hmono ?_
    generalize ((sysMachine svc).exec label s).tasks i = task at hentry hknown
    cases task <;> first | exact hknown | exact absurd hentry id
  · exact hmono (hstep.settled (hs i) fun u => Store.coherent (reach_store hr) u)

/-- The watches of the service have sidecars: the compatibility path is not entered. -/
theorem not_legacy {s : Sys} (h : (sysMachine svc).Reach s) (i : ℕ) (watch : Watch) :
    s.tasks i ≠ .legacy watch := by
  have hsettled : ∀ i, (s.tasks i).Settled s.store := by
    refine h.invariant (P := fun s => ∀ i, (s.tasks i).Settled s.store) ?_ ?_
    · rintro s ⟨-, htasks, -⟩ i
      rw [htasks i]
      trivial
    · exact fun s label hr hs ha => settled_exec hr hs ha
  intro hi
  have := hsettled i
  rwa [hi] at this

/-- The service before anything happens. -/
def fresh : Sys := ⟨⟨.empty 60, 0, []⟩, fun _ => .idle, [], [], []⟩

theorem fresh_init : (sysMachine svc).init fresh := ⟨⟨60, rfl, rfl⟩, fun _ => rfl, rfl, rfl, rfl⟩

theorem fresh_reach : (sysMachine svc).Reach fresh := .init fresh_init

/-- The labels that create the watch `w`. -/
def createRun (autoBook : Bool) : List SysLabel :=
  let watch := Watch.sample "w" autoBook 1000000000 5
  [.start 0 (.creating watch (initialRuntime watch 5 true none)), .resume 0 .proceed 0]

/-- A run in which a delivery is granted its booking permit, up to `book_slot`. -/
def permitRun : List SysLabel :=
  createRun true ++ [.start 1 (.claiming "w" "w:0" "a" true), .resume 1 .proceed 0, .resume 1 .proceed 0,
    .resume 1 (.booking none) 0, .resume 1 (.slots [.sample "s"]) 0, .resume 1 .proceed 0]

end Sys

end Dibs
