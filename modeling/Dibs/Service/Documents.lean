import Dibs.Service.Creation
import Dibs.Service.Stored
import Dibs.Service.System

/-!
# Every stored document can be read back

Runs of the watch service over either store, with providers that answer validly and a clock that stays in
the range of `datetime`. `Stored` is what then holds of the document and the sidecar of every watch after
a number of commits; it is kept by everything that either store can do to them, and below the limit of
the models it makes both valid.
-/

namespace Dibs

/-! ## The document and the sidecar of one watch -/

/-- What is stored of the watch `u` after at most `n` commits. A sidecar that outlives its document keeps
its bounds. -/
structure Stored (u : String) (n : ℕ) (x : Option Watch × Option WatchRuntime) : Prop where
  watch : ∀ w, x.1 = some w → w.watchId = u ∧ w.Storable
  runtime : ∀ r, x.2 = some r → SizedWithin 1 200 u ∧ r.Within u n ∧ r.revision ≤ n + 1
  /-- One more revision may follow the last commit. -/
  active : ∀ w r, x = (some w, some r) → w.status = .active → r.revision ≤ n

namespace Stored

variable {u : String} {n : ℕ} {x : Option Watch × Option WatchRuntime}

theorem mono {n' : ℕ} (h : Stored u n x) (hn : n ≤ n') : Stored u n' x where
  watch := h.watch
  runtime r hr := by
    obtain ⟨hu, hwithin, hrevision⟩ := h.runtime r hr
    exact ⟨hu, hwithin.mono hn, hrevision.trans (Nat.succ_le_succ hn)⟩
  active w r hx hactive := (h.active w r hx hactive).trans hn

/-- Nothing is stored. -/
theorem vacant : Stored u n (none, none) := ⟨by simp, by simp, by simp⟩

/-- What is stored of an active watch. -/
theorem live {w : Watch} {r : WatchRuntime} (hid : w.watchId = u) (hw : w.Storable) (hr : r.Within u n)
    (hrevision : r.revision ≤ n) : Stored u n (some w, some r) where
  watch w' hw' := Option.some.inj hw' ▸ ⟨hid, hw⟩
  runtime r' hr' := Option.some.inj hr' ▸ ⟨hid ▸ hw.valid.watchId, hr, hrevision.trans (Nat.le_succ n)⟩
  active w' r' hx _ := by
    obtain ⟨-, rfl⟩ : w = w' ∧ r = r' := by simpa using hx
    exact hrevision

/-- What is stored of a finished watch. -/
theorem closed {w : Watch} {r : Option WatchRuntime} (hid : w.watchId = u) (hw : w.Storable)
    (hinactive : w.status ≠ .active) (hr : ∀ r' ∈ r, r'.Within u n ∧ r'.revision ≤ n + 1) :
    Stored u n (some w, r) where
  watch w' hw' := Option.some.inj hw' ▸ ⟨hid, hw⟩
  runtime r' hr' := ⟨hid ▸ hw.valid.watchId, hr r' hr'⟩
  active w' r' hx hactive := by
    obtain ⟨rfl, -⟩ : w = w' ∧ r = some r' := by simpa using hx
    exact absurd hactive hinactive

/-- A watch that `create` has opened. -/
theorem created {w : Watch} {r : WatchRuntime} (h : (Task.creating w r).Storable n) :
    Stored w.watchId n (some w, some r) := by
  obtain ⟨⟨-, -, requiredAttempts, supportsDeadline, phase, rfl⟩, hw, hr⟩ := h
  refine live rfl hw ⟨hr.requiredAttempts, Nat.zero_le _, Nat.zero_le _, ?_, ?_⟩ (Nat.zero_le _)
  · exact fun windowId hwindow => (Option.some.inj hwindow).symm
  · exact ⟨hw.dated.nextCheckAt, fun t ht => by contradiction⟩

/-- A commit of the service. -/
theorem committed {claim : WindowClaim} {plan : Plan} (hc : claim.Storable n) (hp : plan.Storable n claim)
    {deadline : Option Time} (hdeadline : ∀ t ∈ deadline, IsDatetime t) :
    Stored claim.watch.watchId (n + 1) (some plan.watch, some { plan.runtime with
      revision := claim.runtime.revision + 1, phase := none, terminalDeleteAt := deadline }) :=
  live hp.watchId hp.watch
    { hp.runtime with dated := { hp.runtime.dated with terminalDeleteAt := hdeadline } }
    (Nat.succ_le_succ hc.revision)

/-- The end that `cancel_if_active` or `expire_if_eligible` writes. -/
theorem ended {w : Watch} {r : Option WatchRuntime} (hid : w.watchId = u) (hw : w.Storable)
    (hr : ∀ r' ∈ r, r'.Within u n ∧ r'.revision ≤ n) {status : WatchStatus}
    (hstatus : status = .expired ∨ status = .cancelled) {now deadline : Time} (hnow : IsDatetime now)
    (hdeadline : IsDatetime deadline) :
    Stored u n (some (w.ended status now), r.map (·.finished deadline)) := by
  refine closed hid (hw.ended hstatus hnow) ?_ ?_
  · rcases hstatus with rfl | rfl <;> simp
  · intro r' hr'
    obtain ⟨r₀, hr₀, rfl⟩ := Option.map_eq_some_iff.mp hr'
    obtain ⟨hwithin, hrevision⟩ := hr r₀ hr₀
    refine ⟨{ hwithin with
      windowId := fun _ hw => by contradiction
      dated := ⟨fun _ ht => by contradiction, fun t ht => Option.some.inj ht ▸ hdeadline⟩ },
      Nat.succ_le_succ hrevision⟩

/-- Below the limit of the models, what is stored is valid. -/
theorem valid (h : Stored u n x) (hn : n < maxCount) :
    (∀ w, x.1 = some w → w.Valid ∧ w.Dated) ∧ ∀ r, x.2 = some r → r.Valid ∧ r.Dated := by
  refine ⟨fun w hw => ⟨(h.watch w hw).2.valid, (h.watch w hw).2.dated⟩, fun r hr => ?_⟩
  obtain ⟨hu, hwithin, hrevision⟩ := h.runtime r hr
  exact ⟨hwithin.valid hu hn.le (hrevision.trans hn), hwithin.dated⟩

/-- A claim on what is stored of an active watch. -/
theorem claim (h : Stored u n x) {c : WindowClaim} (hwatch : x.1 = some c.watch)
    (hruntime : x.2 = some c.runtime) (hactive : c.watch.status = .active) : c.Storable n := by
  obtain ⟨rfl, hw⟩ := h.watch c.watch hwatch
  exact ⟨hw, hactive, (h.runtime c.runtime hruntime).2.1,
    h.active c.watch c.runtime (Prod.ext hwatch hruntime) hactive⟩

/-- A sidecar that only changes in its phase and its recorded intent. -/
theorem marked {w : Watch} {r : WatchRuntime} (h : Stored u n (some w, some r))
    (phase : Option RuntimePhase) (cancelRequested : Bool) :
    Stored u n (some w, some { r with phase := phase, cancelRequested := cancelRequested }) where
  watch := h.watch
  runtime r' hr' := by
    obtain rfl := Option.some.inj hr'
    obtain ⟨hu, hwithin, hrevision⟩ := h.runtime r rfl
    exact ⟨hu, { hwithin with dated := { hwithin.dated with } }, hrevision⟩
  active w' r' hx hactive := by
    simp only [Prod.mk.injEq, Option.some.injEq] at hx
    obtain ⟨rfl, rfl⟩ := hx
    exact h.active w r rfl hactive

/-- The sidecar of an active watch is at most at the revision of the last commit. -/
theorem current (h : Stored u n x) {w : Watch} (hw : x.1 = some w) (hactive : w.status = .active) :
    ∀ r ∈ x.2, r.Within u n ∧ r.revision ≤ n := by
  intro r hr
  exact ⟨(h.runtime r hr).2.1, h.active w r (Prod.ext hw hr) hactive⟩

end Stored

/-! ## Calls of the store -/

/-- What a call passes to the store may be stored. -/
def Op.Storable (n : ℕ) : Op → Prop
  | .create watch runtime => (Task.creating watch runtime).Storable n
  | .begin c => c.Storable n
  | .commit c nw nr => c.Storable n ∧ ∃ plan : Plan, plan.Storable n c ∧ nw = plan.watch ∧ nr = plan.runtime
  | _ => True

/-- What a coroutine passes to the store may be stored. -/
theorem Task.Storable.op {n : ℕ} {task : Task} (h : task.Storable n) {input : Input} {op : Op}
    (hop : task.op input = some op) : op.Storable n := by
  cases task with
  | creating watch runtime =>
    obtain rfl := Option.some.inj hop
    exact h
  | committing c verdict plan =>
    obtain rfl := Option.some.inj hop
    exact ⟨h.1, plan, h.2, rfl, rfl⟩
  | cancelling | expiring | claiming | releasing =>
    obtain rfl := Option.some.inj hop
    trivial
  | permitting c now slots =>
    simp only [Task.op] at hop
    split_ifs at hop
    obtain rfl := Option.some.inj hop
    exact h.1
  | _ => contradiction

/-- A watch that `create` opens, at instants that a `datetime` can hold. -/
def WatchService.Opens (svc : WatchService) (watch : Watch) (runtime : WatchRuntime) : Prop :=
  (∃ maxAttempts zone now watchId query autoBook,
    svc.openWatch maxAttempts zone now watchId query autoBook = .ok (watch, runtime)) ∧ watch.Dated

/-- The constructors have checked what `create` opens. -/
theorem WatchService.Opens.storable {svc : WatchService} {watch : Watch} {runtime : WatchRuntime}
    (h : svc.Opens watch runtime) (n : ℕ) : (Task.creating watch runtime).Storable n := by
  obtain ⟨⟨maxAttempts, zone, now, watchId, query, autoBook, hopened⟩, hdated⟩ := h
  obtain ⟨-, -, -, -, hwatch, hruntime⟩ := openWatch_ok hopened
  exact ⟨(openWatch_scheduled hopened).2.2.2, ⟨hwatch, hdated⟩, hruntime⟩

/-- Whether a call has committed a window. -/
def Reply.isCommit : Reply → Bool
  | .commit result => result.isCommitted
  | _ => false

/-! ## Runs over the in-memory store -/

/-- The commits so far. -/
def Store.commits (s : Store) : ℕ := s.log.countP fun e => e.reply.isCommit

theorem Store.commits_call (s : Store) (op : Op) :
    (s.call op).commits = s.commits + if (s.reply op).isCommit then 1 else 0 := by
  simp [commits, List.countP_cons]

/-- Every effect of a call keeps what is stored. -/
theorem Stored.effect {u : String} {n : ℕ} {d : Duration} {now : Time} {r r' : Row} {op : Op}
    {reply : Reply} (h : Stored u n (r.watch, r.runtime)) (hco : r.Coherent u)
    (he : Effect d now r op reply r') (ht : op.target = u) (hop : op.Storable n) (hnow : IsDatetime now)
    (hdeadline : IsDatetime (now + d)) :
    Stored u (n + if reply.isCommit then 1 else 0) (r'.watch, r'.runtime) := by
  cases he with
  | create hnone =>
    obtain rfl := ht
    exact .created hop
  | @begin _ _ watch runtime hwatch hruntime =>
    change Stored u n (r.watch, some _)
    rw [hwatch, hruntime] at h
    rw [hwatch]
    exact h.marked (some .booking) runtime.cancelRequested
  | @reschedule c nw nr watch runtime hwatch hruntime hactive hrev howns hnew =>
    obtain ⟨hc, plan, hp, rfl, rfl⟩ := hop
    obtain rfl := ht
    have hstored := Stored.committed hc hp hp.runtime.dated.terminalDeleteAt
    rw [← hrev] at hstored
    exact hstored
  | @finish c nw nr watch runtime hwatch hruntime hactive hrev howns hnew =>
    obtain ⟨hc, plan, hp, rfl, rfl⟩ := hop
    obtain rfl := ht
    have hdelete : ∀ t ∈ some (now + d), IsDatetime t := fun t ht => Option.some.inj ht ▸ hdeadline
    have hstored := Stored.committed hc hp hdelete
    rw [← hrev] at hstored
    exact hstored
  | @pend _ watch runtime hwatch hruntime =>
    change Stored u n (r.watch, some _)
    rw [hwatch, hruntime] at h
    rw [hwatch]
    exact h.marked runtime.phase true
  | cancel hwatch hactive =>
    obtain ⟨hid, hw⟩ := h.watch _ hwatch
    exact .ended hid hw (h.current hwatch hactive) (.inr rfl) hnow hdeadline
  | expire hwatch hactive =>
    obtain ⟨hid, hw⟩ := h.watch _ hwatch
    exact .ended hid hw (h.current hwatch hactive) (.inl rfl) hnow hdeadline
  | synthesize hwatch hactive hmarker =>
    obtain ⟨rt, due, hs⟩ := hco.active _ hwatch hactive
    exact absurd (hmarker.symm.trans hs.marker) (by simp)
  | claim | release | claimDispatch | markDispatched | releaseDispatch => exact h

/-- A claim that is issued is one on what is stored. -/
theorem Stored.claim_of_reply {s : Store} {op : Op} {n : ℕ}
    (h : ∀ u, Stored u n ((s.row u).watch, (s.row u).runtime)) {c : WindowClaim}
    (hc : s.reply op = .claim (.owned c)) : c.Storable n := by
  obtain ⟨-, -, -, hwatch, hruntime, hactive, -⟩ := Store.owned_cases hc
  exact (h op.target).claim hwatch hruntime hactive

/-- What comes into a step of the service from outside: a creation stores what `create` has opened, and the
provider answers validly. -/
def SysLabel.Sound (svc : WatchService) : SysLabel → Prop
  | .start _ (.creating watch runtime) => svc.Opens watch runtime
  | .resume _ input _ => input.Sound
  | _ => True

/-- A step at an instant that a `datetime` can hold, with the retention after it, and with valid data. -/
def Sys.Sound (svc : WatchService) (s : Sys) (label : SysLabel) : Prop :=
  IsDatetime s.store.now ∧ IsDatetime (s.store.now + s.store.mem.retention) ∧ label.Sound svc

/-- The documents of the service may be stored: those in the store, and those that coroutines are about to
pass to it. -/
structure Sys.Storable (s : Sys) : Prop where
  stored : ∀ u, Stored u s.store.commits ((s.store.row u).watch, (s.store.row u).runtime)
  tasks : ∀ i, (s.tasks i).Storable s.store.commits

namespace Sys

variable {svc : WatchService} {s : Sys}

/-- What a step passes to the store may be stored. -/
theorem Storable.op (h : s.Storable) {label : SysLabel} (ha : (sysMachine svc).allowed s label) {op : Op}
    (hop : s.op label = some op) : op.Storable s.store.commits := by
  cases label with
  | tick | start | crash => contradiction
  | maintain op' =>
    obtain rfl : op' = op := Option.some.inj hop
    have hm : op'.Maintenance := ha
    cases op' with
    | create | begin | commit => contradiction
    | _ => trivial
  | resume i input offset => exact (h.tasks i).op hop

/-- A call of the store keeps what is stored. -/
theorem Storable.call (h : s.Storable) (hr : (sysMachine svc).Reach s) {op : Op}
    (hop : op.Storable s.store.commits) (hnow : IsDatetime s.store.now)
    (hdeadline : IsDatetime (s.store.now + s.store.mem.retention)) (u : String) :
    Stored u (s.store.call op).commits (((s.store.call op).row u).watch, ((s.store.call op).row u).runtime) := by
  rw [Store.commits_call]
  rcases s.store.row_call op u with ⟨ht, he⟩ | ⟨hrow, -⟩ | ⟨-, hc⟩
  · exact (h.stored u).effect (Store.coherent (reach_store hr) u) he ht hop hnow hdeadline
  · rw [hrow]
    exact (h.stored u).mono (Nat.le_add_right ..)
  · rcases hc with he | ⟨-, he⟩ | ⟨-, he⟩ <;> rw [he]
    · exact (h.stored u).mono (Nat.le_add_right ..)
    · exact .vacant
    · exact (h.stored u).mono (Nat.le_add_right ..)

/-- A step of the service keeps its documents storable. -/
theorem Storable.exec (h : s.Storable) (hr : (sysMachine svc).Reach s) {label : SysLabel}
    (ha : (sysMachine svc).allowed s label) (hsound : s.Sound svc label) :
    ((sysMachine svc).exec label s).Storable := by
  obtain ⟨hnow, hdeadline, hlabel⟩ := hsound
  have hcommits : s.store.commits ≤ ((sysMachine svc).exec label s).store.commits := by
    rcases exec_store svc s label with he | ⟨now, -, he⟩ <;> rw [he]
    · cases s.op label with
      | none => exact le_rfl
      | some op =>
        change _ ≤ (s.store.call op).commits
        rw [Store.commits_call]
        exact Nat.le_add_right ..
    · exact le_rfl
  refine ⟨fun u => ?_, fun j => ?_⟩
  · rcases exec_store svc s label with he | ⟨now, -, he⟩ <;> rw [he]
    · cases hop : s.op label with
      | none => exact h.stored u
      | some op => exact h.call hr (h.op ha hop) hnow hdeadline u
    · exact h.stored u
  · have hkept : (s.tasks j).Storable ((sysMachine svc).exec label s).store.commits :=
      (h.tasks j).mono hcommits
    cases label with
    | tick | maintain => exact hkept
    | start i task =>
      obtain ⟨-, hentry, -⟩ := ha
      rcases eq_or_ne j i with rfl | hne
      · change (Function.update s.tasks j task j).Storable _
        rw [Function.update_self]
        cases task with
        | creating => exact hlabel.storable _
        | cancelling | expiring | resolving | claiming => trivial
        | _ => contradiction
      · change (Function.update s.tasks i task j).Storable _
        rwa [Function.update_of_ne hne]
    | crash i =>
      rcases eq_or_ne j i with rfl | hne
      · change (Function.update s.tasks j .idle j).Storable _
        rw [Function.update_self]
        trivial
      · change (Function.update s.tasks i .idle j).Storable _
        rwa [Function.update_of_ne hne]
    | resume i input offset =>
      obtain ⟨-, ⟨task, hnext⟩, -⟩ := ha
      rcases eq_or_ne j i with rfl | hne
      · change (Function.update s.tasks j ((s.next svc j input offset).getD (s.tasks j)) j).Storable _
        rw [Function.update_self, hnext, Option.getD_some]
        refine (Task.next_storable hnext (h.tasks j) hlabel hnow fun c hc => ?_).mono hcommits
        obtain ⟨op, -, hreply⟩ := Option.map_eq_some_iff.mp hc
        exact Stored.claim_of_reply h.stored hreply
      · change (Function.update s.tasks i _ j).Storable _
        rwa [Function.update_of_ne hne]

/-- In every run with valid data the documents stay storable. -/
theorem storable (h : ((sysMachine svc).restrict (Sound svc)).Reach s) : s.Storable := by
  refine h.invariant (P := Storable) ?_ ?_
  · rintro s ⟨⟨retention, hmem, -⟩, htasks, -⟩
    refine ⟨fun u => ?_, fun i => ?_⟩
    · simp only [Store.row, hmem, Memory.row_empty]
      exact .vacant
    · rw [htasks i]
      trivial
  · exact fun s label hr hs ha => hs.exec hr.of_restrict ha.1 ha.2

end Sys

end Dibs
