import Dibs.Workers.Queue

/-!
# Duplicate and stale deliveries

A job of the in-process queue is published for one window, but its handler claims the window that is
current when it runs (`Strays`): a job that comes late, or twice, claims a later window, before it is
due. `duplicates_harmless_iff` says that nothing else goes wrong. As long as no delivery strays every
delivery claims its own window or nothing, no window is claimed early, and the store commits every
window once, so all deliveries of a window make one check between them.
-/

namespace Dibs

namespace QueueSys

variable {svc : WatchService}

/-- The claims after a step. -/
theorem mem_issued_exec {s : QueueSys} {label : SysLabel} {c : WindowClaim}
    (hc : c ∈ ((sysMachine svc).exec label s.sys).store.issued) : c ∈ s.sys.store.issued ∨
      ∃ op, s.sys.op label = some op ∧ s.sys.store.reply op = .claim (.owned c) := by
  rcases Sys.exec_store svc s.sys label with he | ⟨now, -, he⟩ <;> rw [he] at hc
  · cases hop : s.sys.op label with
    | none =>
      rw [hop] at hc
      exact .inl hc
    | some op =>
      rw [hop] at hc
      rcases Store.mem_issued_call hc with hnew | hold
      · exact .inr ⟨op, rfl, hnew⟩
      · exact .inl hold
  · exact .inl hc

/-- The commits after a step. -/
theorem committed_exec (s : QueueSys) (label : SysLabel) :
    ((s.delivery Entry.committed label).toList.map Delivery.claim ++
      s.sys.store.committed).Sublist ((sysMachine svc).exec label s.sys).store.committed := by
  cases hd : s.delivery Entry.committed label with
  | none =>
    change s.sys.store.committed.Sublist _
    rcases Sys.exec_store svc s.sys label with he | ⟨now, -, he⟩ <;> rw [he]
    · cases s.sys.op label with
      | none => exact .refl _
      | some op =>
        rcases Store.committed_call s.sys.store op with ⟨c, -, -, -, -, -, -, h⟩ | h
        · change s.sys.store.committed.Sublist (s.sys.store.call op).committed
          rw [h]
          exact List.sublist_cons_self _ _
        · change s.sys.store.committed.Sublist (s.sys.store.call op).committed
          rw [h]
    · exact .refl _
  | some d =>
    obtain ⟨k, input, offset, job, op, -, -, hop, hclaim, -, -⟩ := delivery_eq_some.mp hd
    rw [Sys.store_of_op hop]
    have hclaim : Entry.committed ⟨s.sys.store.now, op, s.sys.store.reply op⟩ = some d.claim := hclaim
    have hstore : (s.sys.store.call op).committed = d.claim :: s.sys.store.committed := by
      simp only [Store.committed, Store.call_log, List.filterMap_cons, hclaim]
    rw [hstore]
    exact .refl _

/-- A claim is issued to a delivery of the queue, and recorded. -/
theorem Inv.claimed {s : QueueSys} (h : s.Inv) {label : SysLabel}
    (ha : (sysMachine svc).allowed s.sys label) {op : Op} (hop : s.sys.op label = some op)
    {c : WindowClaim} (hreply : s.sys.store.reply op = .claim (.owned c)) :
    ∃ k input offset job, label = .resume k input offset ∧ s.queue.jobs k = some job ∧
      (∃ o, s.sys.tasks k = .claiming job.watchId c.windowId o false) ∧
      s.delivery Entry.claimed label = some ⟨job.windowId, s.now, c⟩ := by
  obtain ⟨lease, ignoreSchedule, hclaim, -⟩ := Store.owned_cases hreply
  cases label with
  | tick | start | crash => contradiction
  | maintain op' =>
    obtain rfl : op' = op := Option.some.inj hop
    rw [hclaim] at ha
    exact absurd ha id
  | resume k input offset =>
    have hop' : (s.sys.tasks k).op input = some op := hop
    rw [hclaim] at hop'
    obtain ⟨enforceDue, htask, -, -⟩ := Task.claiming_of_op hop'
    obtain ⟨rfl, job, hjob, hid⟩ := h.claiming k _ _ _ _ htask
    refine ⟨k, input, offset, job, rfl, hjob, ⟨c.ownerId, by rw [htask, hid]⟩, ?_⟩
    refine delivery_eq_some.mpr ⟨k, input, offset, job, op, rfl, hjob, hop, ?_, rfl, rfl⟩
    rw [hreply]
    rfl

/-- A step of the service keeps the invariant. -/
theorem Inv.sys {s : QueueSys} (h : s.Inv) {label : SysLabel}
    (ha : (sysMachine svc).allowed s.sys label) (hout : s.Outside label) :
    ((queueMachine svc).exec (.sys label) s).Inv := by
  have hgrow : ∀ d ∈ s.claimed, d ∈ (s.delivery Entry.claimed label).toList ++ s.claimed :=
    fun d hd => List.mem_append_right _ hd
  -- What starts outside of the queue is no delivery.
  have hstart : ∀ {j}, label = .start j (((sysMachine svc).exec label s.sys).tasks j) →
      (((sysMachine svc).exec label s.sys).tasks j).isDelivery = false := by
    intro j hlabel
    rw [hlabel] at hout
    exact hout.2
  refine ⟨fun k job hjob => Sys.created_exec (h.known k job hjob), fun k u owner htask => ?_,
    fun k u w owner enforceDue htask => ?_, fun k c hc => ?_, fun c hc => ?_, ?_, fun d hd => ?_⟩
  · change ((sysMachine svc).exec label s.sys).tasks k = _ at htask
    rcases Sys.tasks_exec ha k with ⟨hsame, -⟩ | hidle | ⟨-, -, hlabel⟩ | ⟨input, offset, -, -, hstep⟩
    · exact h.resolving k u owner (hsame.symm.trans htask)
    · exact absurd (hidle.symm.trans htask) (by simp)
    · exact absurd (hstart hlabel) (by simp [htask, Task.isDelivery])
    · exact absurd htask (hstep.claiming.2 u owner)
  · change ((sysMachine svc).exec label s.sys).tasks k = _ at htask
    rcases Sys.tasks_exec ha k with ⟨hsame, -⟩ | hidle | ⟨-, -, hlabel⟩ | ⟨input, offset, -, -, hstep⟩
    · exact h.claiming k u w owner enforceDue (hsame.symm.trans htask)
    · exact absurd (hidle.symm.trans htask) (by simp)
    · exact absurd (hstart hlabel) (by simp [htask, Task.isDelivery])
    · obtain ⟨hresolving, hdue⟩ := hstep.claiming.1 u w owner enforceDue htask
      exact ⟨hdue, h.resolving k u owner hresolving⟩
  · change (((sysMachine svc).exec label s.sys).tasks k).claim = some c at hc
    have hold : (s.sys.tasks k).claim = some c → ∃ job, s.queue.jobs k = some job ∧
        ∃ d ∈ (s.delivery Entry.claimed label).toList ++ s.claimed,
          d.claim = c ∧ d.windowId = job.windowId := by
      intro hc
      obtain ⟨job, hjob, d, hd, hdc, hdw⟩ := h.holding k c hc
      exact ⟨job, hjob, d, hgrow d hd, hdc, hdw⟩
    rcases Sys.tasks_exec ha k with ⟨hsame, -⟩ | hidle | ⟨hentry, -⟩ | ⟨input, offset, rfl, -, hstep⟩
    · rw [hsame] at hc
      exact hold hc
    · rw [hidle] at hc
      contradiction
    · generalize ((sysMachine svc).exec label s.sys).tasks k = task at hc hentry
      cases task with
      | creating | cancelling | expiring | resolving | claiming => simp [Task.claim] at hc
      | _ => exact absurd hentry id
    · rcases hstep.claim hc with hc | hreply
      · exact hold hc
      · obtain ⟨op, hop, hreply⟩ := Option.map_eq_some_iff.mp hreply
        obtain ⟨k', input', offset', job, hlabel, hjob, -, hd⟩ := h.claimed ha hop hreply
        obtain ⟨rfl, -, -⟩ := SysLabel.resume.inj hlabel
        refine ⟨job, hjob, ⟨job.windowId, s.now, c⟩, List.mem_append_left _ ?_, rfl, rfl⟩
        rw [hd]
        exact List.mem_singleton.mpr rfl
  · rcases mem_issued_exec hc with hold | ⟨op, hop, hreply⟩
    · obtain ⟨d, hd, hdc⟩ := h.issued c hold
      exact ⟨d, hgrow d hd, hdc⟩
    · obtain ⟨k, input, offset, job, -, -, -, hd⟩ := h.claimed ha hop hreply
      exact ⟨⟨job.windowId, s.now, c⟩, List.mem_append_left _ (by simp [hd]), rfl⟩
  · change (((s.delivery Entry.committed label).toList ++ s.committed).map Delivery.claim).Sublist _
    rw [List.map_append]
    exact ((List.Sublist.refl _).append h.committed).trans (committed_exec s label)
  · rcases List.mem_append.mp hd with hnew | hold
    · have hnew : s.delivery Entry.committed label = some d := by simpa using hnew
      obtain ⟨k, input, offset, job, op, rfl, hjob, hop, hclaim, hwindow, -⟩ := delivery_eq_some.mp hnew
      -- The delivery commits the claim that it holds.
      obtain ⟨nw, nr, rfl⟩ : ∃ nw nr, op = .commit d.claim nw nr := by
        unfold Entry.committed at hclaim
        split at hclaim
        · rename_i hop' _
          obtain rfl := Option.some.inj hclaim
          exact ⟨_, _, hop'⟩
        · contradiction
      obtain ⟨i, input', offset', verdict, plan, hlabel, htask, -⟩ := Sys.commit_of_op ha hop
      obtain ⟨rfl, -, -⟩ := SysLabel.resume.inj hlabel
      obtain ⟨job', hjob', d', hd', hdc, hdw⟩ := h.holding k d.claim (by rw [htask]; rfl)
      obtain rfl := Option.some.inj (hjob.symm.trans hjob')
      exact ⟨d', hgrow d' hd', hdc, hdw.trans hwindow.symm⟩
    · obtain ⟨d', hd', hdc, hdw⟩ := h.attributed d hold
      exact ⟨d', hgrow d' hd', hdc, hdw⟩

/-- A job that fires starts its handler. -/
theorem fire_sys {s : QueueSys} {k : ℕ} {job : Job} (hjob : s.queue.jobs k = some job) (owner : String) :
    s.fire svc k owner = { s with
      sys := (sysMachine svc).exec (.start k (.resolving job.watchId owner)) s.sys
      queue := s.queue.wake k } := by
  simp only [fire, hjob]

/-- A job that fires keeps the invariant. -/
theorem Inv.fire {s : QueueSys} (h : s.Inv) {k : ℕ} (hready : s.Ready k) (owner : String) :
    (s.fire svc k owner).Inv := by
  obtain ⟨job, hjob, -⟩ := id hready
  have hkeep := h.of_keeps (wake_keeps s.queue k) fun j job' hjob' => by
    obtain ⟨job'', hjob'', hid⟩ := jobs_of_wake hjob'
    rw [← hid]
    exact h.known j job'' hjob''
  rw [fire_sys hjob owner]
  have htasks : ∀ j, j ≠ k →
      ((sysMachine svc).exec (.start k (.resolving job.watchId owner)) s.sys).tasks j = s.sys.tasks j :=
    fun j hj => Function.update_of_ne hj ..
  have hself : ((sysMachine svc).exec (.start k (.resolving job.watchId owner)) s.sys).tasks k =
      .resolving job.watchId owner := Function.update_self ..
  refine ⟨hkeep.known, fun j u o htask => ?_, fun j u w o enforceDue htask => ?_, fun j c hc => ?_,
    hkeep.issued, hkeep.committed, hkeep.attributed⟩
  · by_cases hj : j = k
    · subst hj
      obtain ⟨rfl, -⟩ := Task.resolving.inj (hself.symm.trans htask)
      obtain ⟨job', hjob', hid, -⟩ := wake_keeps s.queue j j job hjob
      exact ⟨job', hjob', hid⟩
    · exact hkeep.resolving j u o ((htasks j hj).symm.trans htask)
  · by_cases hj : j = k
    · subst hj
      exact absurd (hself.symm.trans htask) (by simp)
    · exact hkeep.claiming j u w o enforceDue ((htasks j hj).symm.trans htask)
  · by_cases hj : j = k
    · subst hj
      rw [hself] at hc
      contradiction
    · rw [htasks j hj] at hc
      exact hkeep.holding j c hc

/-- The service with its queue goes through runs of the service, and the invariant holds. -/
theorem reach_inv {s : QueueSys} (h : (queueMachine svc).Reach s) :
    (sysMachine svc).Reach s.sys ∧ s.Inv := by
  refine h.invariant (P := fun s => (sysMachine svc).Reach s.sys ∧ s.Inv) ?_ ?_
  · rintro s ⟨hsys, hqueue, hclaimed, hcommitted⟩
    obtain ⟨⟨retention, -, hlog⟩, htasks, -⟩ := id hsys
    refine ⟨.init hsys, ?_⟩
    refine ⟨by simp [hqueue], fun k u owner ht => ?_, fun k u w owner enforceDue ht => ?_, fun k c hc => ?_,
      by simp [Store.issued, hlog], by simp [hcommitted], by simp [hcommitted]⟩
    · exact absurd ((htasks k).symm.trans ht) (by simp)
    · exact absurd ((htasks k).symm.trans ht) (by simp)
    · rw [htasks k] at hc
      contradiction
  · rintro s label - ⟨hr, hi⟩ ha
    cases label with
    | sys label => exact ⟨hr.step label ha.1, hi.sys ha.1 ha.2⟩
    | enqueue k watchId windowId delaySeconds dueAt =>
      refine ⟨hr, hi.of_keeps (fun j job hjob => ?_) fun j job hjob => ?_⟩
      · rcases enqueue_jobs s.queue s.now s.done k watchId (some windowId) delaySeconds dueAt j with
          hsame | ⟨rfl, -⟩
        · exact ⟨job, hsame.trans hjob, rfl, rfl⟩
        · exact absurd (ha.1.symm.trans hjob) (by simp)
      · rcases enqueue_jobs s.queue s.now s.done k watchId (some windowId) delaySeconds dueAt j with
          hsame | ⟨rfl, job', hid, hnew⟩
        · exact hi.known j job (hsame.symm.trans hjob)
        · obtain rfl := Option.some.inj (hnew.symm.trans hjob)
          rw [hid]
          exact ha.2.2
    | fire k owner =>
      obtain ⟨job, hjob, -⟩ := id (ha : s.Ready k)
      refine ⟨?_, hi.fire ha owner⟩
      change (sysMachine svc).Reach (s.fire svc k owner).sys
      rw [fire_sys hjob owner]
      exact hr.step _ (start_allowed hi hjob ha owner)
    | forget k =>
      have hjobs : (s.queue.forget k).jobs = s.queue.jobs := by
        unfold AsyncioTaskQueue.forget
        split
        · split_ifs <;> rfl
        · rfl
      refine ⟨hr, hi.of_keeps (fun j job hjob => ⟨job, by rw [hjobs, hjob], rfl, rfl⟩) fun j job hjob => ?_⟩
      rw [hjobs] at hjob
      exact hi.known j job hjob
    | close =>
      refine ⟨hr, hi.of_keeps (fun j job hjob => ?_) fun j job hjob => ?_⟩
      · exact ⟨{ job with asleep := false }, by simp [AsyncioTaskQueue.close, hjob], rfl, rfl⟩
      · obtain ⟨job', hjob', rfl⟩ := Option.map_eq_some_iff.mp hjob
        exact hi.known j job' hjob'

/-- Deliveries are harmless: a claim is on the window that the delivery was published for and does not
come before its due time, and the deliveries of one window make at most one commit. -/
def Harmless (s : QueueSys) : Prop :=
  (∀ d ∈ s.claimed, d.windowId = some d.claim.windowId ∧
    ∀ due, d.claim.runtime.scheduledFor = some due → due ≤ d.instant) ∧
  ∀ w, (s.committed.filter fun d => decide (d.windowId = some w)).length ≤ 1

/-- A delivery strays: it is about to claim the current window of an active watch, which is free, but
is not the window that it was published for, or is not due. -/
structure StraysAt (s : QueueSys) (k : ℕ) (job : Job) (w owner : String) (watch : Watch)
    (runtime : WatchRuntime) : Prop where
  /-- The delivery comes from the job. -/
  published : s.queue.jobs k = some job
  /-- It is about to claim a window. -/
  about : s.sys.tasks k = .claiming job.watchId w owner false
  /-- The watch is there. -/
  stored : (s.sys.store.row job.watchId).watch = some watch
  /-- It is active. -/
  active : watch.status = .active
  /-- It has a sidecar. -/
  sidecar : (s.sys.store.row job.watchId).runtime = some runtime
  /-- The window is the current one. -/
  current : runtime.windowId = some w
  /-- Nobody has an unexpired claim on it. -/
  free : ∀ held, (s.sys.store.row job.watchId).claim = some held → held.windowId = w →
    held.expiresAt ≤ s.now
  /-- It is not the published one, or comes early. -/
  stray : job.windowId ≠ some w ∨ ∃ due, runtime.scheduledFor = some due ∧ s.now < due

/-- A step in which a delivery strays. -/
def Strays (s : QueueSys) (label : QueueLabel) : Prop :=
  ∃ k input offset job w owner watch runtime, label = .sys (.resume k input offset) ∧
    s.StraysAt k job w owner watch runtime

/-- The claims of a window that are committed make one commit. -/
theorem committed_once {s : QueueSys} (hr : (queueMachine svc).Reach s)
    (hown : ∀ d ∈ s.claimed, d.windowId = some d.claim.windowId) (w : String) :
    (s.committed.filter fun d => decide (d.windowId = some w)).length ≤ 1 := by
  obtain ⟨hsys, hinv⟩ := reach_inv hr
  have hwindow : ∀ d ∈ s.committed, d.windowId = some d.claim.windowId := by
    intro d hd
    obtain ⟨d', hd', hdc, hdw⟩ := hinv.attributed d hd
    rw [← hdw, ← hdc]
    exact hown d' hd'
  have hnodup := Store.served_windows_nodup (Sys.reach_store hsys)
  calc (s.committed.filter fun d => decide (d.windowId = some w)).length
      = (s.committed.filter fun d => decide (d.claim.windowId = w)).length := by
        congr 1
        exact List.filter_congr fun d hd => by simp only [hwindow d hd, Option.some_inj]
    _ = ((s.committed.map Delivery.claim).filter fun c => decide (c.windowId = w)).length := by
        rw [List.filter_map, List.length_map]
        rfl
    _ ≤ (s.sys.store.committed.filter fun c => decide (c.windowId = w)).length :=
        (hinv.committed.filter _).length_le
    _ = (s.sys.store.committed.map WindowClaim.windowId).count w := by
        rw [List.count, List.countP_map, List.countP_eq_length_filter]
        rfl
    _ ≤ 1 := List.nodup_iff_count_le_one.mp hnodup w

/-- A step without a stray delivery claims nothing but the published window when it is due. -/
theorem Harmless.exec {s : QueueSys} (hr : (queueMachine svc).Reach s) {label : QueueLabel}
    (ha : (queueMachine svc).allowed s label) (hgood : ¬ s.Strays label) (h : s.Harmless) :
    ((queueMachine svc).exec label s).Harmless := by
  have hclaimed : ∀ d ∈ ((queueMachine svc).exec label s).claimed,
      d.windowId = some d.claim.windowId ∧
        ∀ due, d.claim.runtime.scheduledFor = some due → due ≤ d.instant := by
    intro d hd
    cases label with
    | enqueue | forget | close => exact h.1 d hd
    | fire k owner =>
      obtain ⟨job, hjob, -⟩ := (ha : s.Ready k)
      change d ∈ (s.fire svc k owner).claimed at hd
      rw [fire_sys hjob owner] at hd
      exact h.1 d hd
    | sys label =>
      rcases List.mem_append.mp hd with hnew | hold
      · have hnew : s.delivery Entry.claimed label = some d := by simpa using hnew
        obtain ⟨-, -, -, -, op, -, -, hop, hclaim, -, -⟩ := delivery_eq_some.mp hnew
        have hreply : s.sys.store.reply op = .claim (.owned d.claim) := by
          unfold Entry.claimed at hclaim
          split at hclaim
          · rename_i c hc
            obtain rfl := Option.some.inj hclaim
            exact hc
          · contradiction
        obtain ⟨k, input, offset, job, rfl, hjob, ⟨o, htask⟩, hd'⟩ :=
          (reach_inv hr).2.claimed ha.1 hop hreply
        have heq : d = ⟨job.windowId, s.now, d.claim⟩ := Option.some.inj (hnew.symm.trans hd')
        -- The claim was free and current; if it was not the right one, the delivery strays.
        obtain ⟨lease, ignoreSchedule, hopeq, hwatch, hruntime, hactive, hwindow, -⟩ :=
          Store.owned_cases hreply
        obtain ⟨r, -, he⟩ := Store.effect_of_reply hreply rfl
        have htarget : op.target = job.watchId := by
          have hop' : (s.sys.tasks k).op input = some op := hop
          rw [htask] at hop'
          obtain rfl := Option.some.inj hop'
          rfl
        rw [htarget] at hwatch hruntime he
        rw [show d.windowId = job.windowId from congrArg Delivery.windowId heq,
          show d.instant = s.now from congrArg Delivery.instant heq]
        by_contra hbad
        refine hgood ⟨k, input, offset, job, d.claim.windowId, o, d.claim.watch, d.claim.runtime, rfl, hjob,
          htask, hwatch, hactive, hruntime, hwindow, ?_, ?_⟩
        · generalize hc : d.claim = c at he
          cases he with
          | claim _ _ _ _ _ hfree => exact hfree
        · by_contra hfine
          rw [not_or, not_not] at hfine
          refine hbad ⟨hfine.1, fun due hdue => not_lt.mp fun hlt => hfine.2 ⟨due, hdue, hlt⟩⟩
      · exact h.1 d hold
  exact ⟨hclaimed, committed_once (hr.step label ha) fun d hd => (hclaimed d hd).1⟩

/-- A delivery that strays claims the wrong window, or claims it too early. -/
theorem Strays.not_harmless {s : QueueSys} {label : QueueLabel} (h : s.Strays label) :
    ¬ ((queueMachine svc).exec label s).Harmless := by
  obtain ⟨k, input, offset, job, w, owner, watch, runtime, rfl, hs⟩ := h
  have hop : s.sys.op (.resume k input offset) = some (.claim job.watchId w owner pollLease true) := by
    simp only [Sys.op, hs.about, Task.op, Bool.not_false]
  obtain ⟨c, hc⟩ : ∃ c, (s.sys.store.mem.claimWindow s.now job.watchId w owner pollLease true).1 =
      .owned c :=
    Memory.claimWindow_owned hs.stored hs.sidecar hs.active hs.current (by simp) hs.free
  have hreply : s.sys.store.reply (.claim job.watchId w owner pollLease true) = .claim (.owned c) :=
    congrArg Reply.claim hc
  obtain ⟨lease, ignoreSchedule, hopeq, hwatch, hruntime, -, hwindow, -⟩ := Store.owned_cases hreply
  intro hharmless
  have hd : s.delivery Entry.claimed (.resume k input offset) = some ⟨job.windowId, s.now, c⟩ := by
    refine delivery_eq_some.mpr ⟨k, input, offset, job, _, rfl, hs.published, hop, ?_, rfl, rfl⟩
    rw [hreply]
    rfl
  obtain ⟨hown, hdue⟩ := hharmless.1 ⟨job.windowId, s.now, c⟩ (List.mem_append_left _ (by simp [hd]))
  obtain rfl : c.runtime = runtime := Option.some.inj (hruntime.symm.trans hs.sidecar)
  obtain rfl : c.windowId = w := Option.some.inj (hwindow.symm.trans hs.current)
  rcases hs.stray with hne | ⟨due, hdue', hlt⟩
  · exact hne hown
  · exact absurd (hdue due hdue') (not_le.mpr hlt)

/-- Deliveries are harmless exactly as long as none strays. -/
theorem harmless_exactlyWhen :
    (queueMachine svc).ExactlyWhen Harmless fun s label => ¬ s.Strays label where
  holds s hs := by
    refine hs.invariant ?_ fun s label hr h ha => h.exec hr.of_restrict ha.1 ha.2
    rintro s ⟨-, -, hclaimed, hcommitted⟩
    exact ⟨by simp [hclaimed], by simp [hcommitted]⟩
  breaks s label _ _ hbad := (not_not.mp hbad).not_harmless

/-- In every state of a run the deliveries have been harmless if and only if in no step of it a
delivery meets a free current window that is not the one it was published for, or is not due. -/
theorem duplicates_harmless_iff {s : QueueSys} (hs : (queueMachine svc).init s)
    {labels : List QueueLabel} (hr : (queueMachine svc).Runs s labels) :
    (queueMachine svc).Always Harmless s labels ↔
      (queueMachine svc).EachStep (fun s label => ¬ s.Strays label) s labels :=
  harmless_exactlyWhen.always_iff hs hr

/-- The service and its queue before anything happens. -/
def fresh : QueueSys := ⟨.fresh, ⟨fun _ => none, .empty, false⟩, [], []⟩

theorem fresh_init : (queueMachine svc).init fresh := ⟨Sys.fresh_init, rfl, rfl, rfl⟩

/-- A run in which the first window of a watch is published again after its check found nothing. -/
def duplicateRun : List QueueLabel :=
  (Sys.createRun false).map .sys ++
  [.enqueue 1 "w" "w:0" 0 none, .fire 1 "a", .sys (.resume 1 .proceed 0), .sys (.resume 1 .proceed 0),
    .sys (.resume 1 .proceed 0), .sys (.resume 1 (.slots []) 0), .sys (.resume 1 .proceed 0),
    .sys (.resume 1 .proceed 0), .sys (.resume 1 .proceed 0), .forget 1,
    .enqueue 2 "w" "w:0" 0 none, .fire 2 "b", .sys (.resume 2 .proceed 0), .sys (.resume 2 .proceed 0)]

/-- The state after the run `duplicateRun`. -/
def duplicated : QueueSys := (queueMachine .sample).final fresh duplicateRun

theorem duplicateRun_runs : (queueMachine .sample).Runs fresh duplicateRun := by decide +kernel

/-- After the run `duplicateRun` a delivery of the first window has claimed the second one. -/
theorem duplicated_not_harmless : ¬ duplicated.Harmless := by
  intro h
  have hstray : ∃ d ∈ duplicated.claimed, d.windowId = some "w:0" ∧ d.claim.windowId = "w:1" := by
    decide +kernel
  obtain ⟨d, hd, hpublished, hclaimed⟩ := hstray
  have hown := (h.1 d hd).1
  rw [hpublished, hclaimed] at hown
  exact absurd hown (by decide)

/-- A stale delivery can do harm. -/
theorem stale_delivery_strays : ¬ ∀ s, (queueMachine .sample).Reach s → s.Harmless := fun h =>
  duplicated_not_harmless (h duplicated ((Machine.Reach.init fresh_init).final duplicateRun_runs))

/-- In the run `duplicateRun` a delivery strays. -/
theorem duplicates_harmless_iff_duplicate :
    ¬ (queueMachine .sample).EachStep (fun s label => ¬ s.Strays label) fresh duplicateRun := fun h =>
  duplicated_not_harmless ((duplicates_harmless_iff fresh_init duplicateRun_runs).mpr h).final

end QueueSys

end Dibs
