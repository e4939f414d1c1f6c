import Dibs.Service.System

/-!
# Terminal is final and announced at most once

Four paths finish a watch: the commit of a claim's owner, a cancellation, and an expiry by a delivery
or by recovery. Each is one call of the store, which checks that the watch is active, writes the
terminal document and issues the event in one step, so at most one of them is applied
(`issued_cases`). The notification comes later, from the coroutine that made the call. `Heard` keeps
track of it: from the call on there is one notice, which is either still owed by exactly one
coroutine, or was sent, or is lost with a crash.
-/

namespace Dibs

/-- The watch and the event id of a call that issued an event. -/
def Reply.issued : Reply → Option (Watch × String)
  | .commit (.committed watch eventId) => eventId.map (watch, ·)
  | .transition (.applied watch eventId _) => eventId.map (watch, ·)
  | _ => none

/-- The event id that a call issued for a watch. -/
def Entry.event (u : String) (e : Entry) : Option String :=
  if e.op.target = u then e.reply.issued.map Prod.snd else none

/-- The notification that a task still owes. -/
def Task.owed : Task → Option Notice
  | .recording watch _ (.notify event) _ | .announcing watch (.notify event) _ => some ⟨watch, event⟩
  | _ => none

namespace Store

/-- The event ids issued for a watch, newest first. -/
def events (s : Store) (u : String) : List String := s.log.filterMap (Entry.event u)

/-- The events after a call. -/
theorem events_call (s : Store) (op : Op) (u : String) :
    (s.call op).events u =
      (if op.target = u then (s.reply op).issued.map Prod.snd else none).toList ++ s.events u := by
  simp only [events, call_log, List.filterMap_cons, Entry.event]
  generalize (if op.target = u then (s.reply op).issued.map Prod.snd else none) = e
  cases e <;> rfl

/-- An event is issued in the step that takes an active watch to the terminal document it is about. -/
theorem issued_cases {s : Store} {op : Op} {w : Watch} {eventId : String}
    (h : (s.reply op).issued = some (w, eventId)) :
    (∃ w₀, (s.row op.target).watch = some w₀ ∧ w₀.status = .active) ∧
      ((s.call op).row op.target).watch = some w ∧ w.status.hasEvent = true ∧
      (∀ u expected force, op = .expire u expected force → w.status = .expired) := by
  have happ : (s.reply op).isApplied = true := by
    cases hr : s.reply op with
    | commit result => cases result <;> simp_all [Reply.issued, Reply.isApplied]
    | transition result => cases result <;> simp_all [Reply.issued, Reply.isApplied]
    | _ => simp [hr, Reply.issued] at h
  obtain ⟨r, hrow, he⟩ := effect_of_applied happ
  generalize s.reply op = reply at h he
  cases he with
  | finish hwatch _ hactive =>
    simp only [Reply.issued, eventOf] at h
    split_ifs at h with hevent
    · obtain ⟨rfl, -⟩ := Prod.mk.inj (Option.some.inj h)
      exact ⟨⟨_, hwatch, hactive⟩, by rw [hrow]; rfl, hevent, by simp⟩
    · contradiction
  | expire hwatch hactive =>
    obtain ⟨rfl, -⟩ := Prod.mk.inj (Option.some.inj h)
    exact ⟨⟨_, hwatch, hactive⟩, by rw [hrow]; rfl, rfl, fun _ _ _ _ => rfl⟩
  | _ => simp [Reply.issued] at h

end Store

/-- A task that is about to notify owes the notification. -/
theorem Task.owed_of_notice {task : Task} {n : Notice} (h : task.notice = some n) :
    task.owed = some n := by
  unfold notice at h
  split at h
  · exact h
  · contradiction

/-- A task owes a notification because it did before its last step, which did not send it, or because
the call of that step issued the event. -/
theorem Task.Step.owed {svc : WatchService} {s : Store} {offset : ℚ} {task task' : Task}
    {input : Input} {reply : Option Reply} (h : Task.Step svc s offset task input reply task')
    {n : Notice} (hn : task'.owed = some n) :
    (task.owed = some n ∧ task.notice = none) ∨
    ∃ eventId, reply.bind Reply.issued = some (n.watch, eventId) ∧
      (eventFor n.watch.status = some n.event ∨ (n.event = .expired ∧ ∃ u, task = .expiring u)) := by
  cases h with
  | recorded =>
    rename_i watch revision after result
    cases after with
    | notify event => exact .inl ⟨hn, rfl⟩
    | nothing | publish => simp [Task.owed] at hn
  | @expired u watch eventId revision input =>
    cases eventId with
    | none => simp [Task.owed] at hn
    | some eventId =>
      obtain rfl := Option.some.inj hn
      exact .inr ⟨eventId, rfl, .inr ⟨rfl, u, rfl⟩⟩
  | @committed c verdict plan watch eventId after result input hfollowup hafter =>
    rcases hafter with rfl | ⟨event, rfl, hid, hevent⟩
    · simp [Task.owed] at hn
    · obtain ⟨eventId, rfl⟩ := Option.isSome_iff_exists.mp hid
      obtain rfl := Option.some.inj hn
      exact .inr ⟨eventId, rfl, .inl hevent⟩
  | _ => simp [Task.owed, Task.commit] at hn

namespace Sys

variable {svc : WatchService}

/-- The notifications sent for a watch, newest first. -/
def sentFor (s : Sys) (u : String) : List Notice :=
  s.sent.filter fun n => decide (n.watch.watchId = u)

/-- The step issues an event for a watch. -/
def Issues (s : Sys) (label : SysLabel) (u : String) (w : Watch) : Prop :=
  ∃ op eventId, s.op label = some op ∧ op.target = u ∧ (s.store.reply op).issued = some (w, eventId)

/-- A notification that is owed after a step was owed before it and not sent by it, or is about the
event that the step issued. -/
theorem owed_exec {s : Sys} {label : SysLabel} (ha : (sysMachine svc).allowed s label) {j : ℕ}
    {n : Notice} (hn : (((sysMachine svc).exec label s).tasks j).owed = some n) :
    ((s.tasks j).owed = some n ∧
      ∀ input offset, label = .resume j input offset → (s.tasks j).notice = none) ∨
    ((∃ input offset, label = .resume j input offset) ∧ eventFor n.watch.status = some n.event ∧
      ∃ u, s.Issues label u n.watch) := by
  rcases tasks_exec ha j with ⟨htask, hlabel⟩ | htask | ⟨hentry, -⟩ | ⟨input, offset, rfl, -, hstep⟩
  · rw [htask] at hn
    refine .inl ⟨hn, ?_⟩
    rintro input offset rfl
    exact absurd rfl hlabel
  · rw [htask] at hn
    contradiction
  · generalize ((sysMachine svc).exec label s).tasks j = task at hn hentry
    cases task <;> simp_all [Task.Entry, Task.owed]
  · rcases hstep.owed hn with ⟨hold, hnot⟩ | ⟨eventId, hissued, hevent⟩
    · exact .inl ⟨hold, fun _ _ _ => hnot⟩
    · obtain ⟨reply, hreply, hissued⟩ := Option.bind_eq_some_iff.mp hissued
      obtain ⟨op, hop, rfl⟩ := Option.map_eq_some_iff.mp hreply
      refine .inr ⟨⟨input, offset, rfl⟩, ?_, op.target, op, eventId, hop, rfl, hissued⟩
      rcases hevent with hevent | ⟨hexp, u, htask⟩
      · exact hevent
      · rw [htask] at hop
        obtain rfl := Option.some.inj hop
        rw [hexp, (Store.issued_cases hissued).2.2.2 u none false rfl]
        rfl

/-- What a step sends was owed by the coroutine that it resumes, which then owes nothing. -/
theorem sent_exec {s : Sys} {label : SysLabel} (ha : (sysMachine svc).allowed s label) :
    ((sysMachine svc).exec label s).sent = s.sent ∨
    ∃ j n, (s.tasks j).owed = some n ∧ ((sysMachine svc).exec label s).sent = n :: s.sent ∧
      (((sysMachine svc).exec label s).tasks j).owed = none := by
  cases label with
  | tick | start | crash | maintain => exact .inl rfl
  | resume i input offset =>
    change (s.tasks i).notice.toList ++ s.sent = s.sent ∨ ∃ j n, _ ∧
      (s.tasks i).notice.toList ++ s.sent = n :: s.sent ∧ _
    cases hnotice : (s.tasks i).notice with
    | none => exact .inl rfl
    | some n =>
      refine .inr ⟨i, n, Task.owed_of_notice hnotice, rfl, ?_⟩
      cases howed : (((sysMachine svc).exec (.resume i input offset) s).tasks i).owed with
      | none => rfl
      | some n' =>
        rcases owed_exec ha howed with ⟨-, hnot⟩ | ⟨-, -, u, op, eventId, hop, -⟩
        · exact absurd (hnotice.symm.trans (hnot input offset rfl)) (by simp)
        · -- A coroutine that notifies calls no method of the store.
          unfold Task.notice at hnotice
          split at hnotice
          · rename_i htask
            simp [Sys.op, htask, Task.op] at hop
          · contradiction

/-- The events of a watch after a step: one more when the step issues one. -/
theorem events_exec (svc : WatchService) (s : Sys) (label : SysLabel) (u : String) :
    (∃ w eventId, s.Issues label u w ∧
      ((sysMachine svc).exec label s).store.events u = eventId :: s.store.events u) ∨
    ((∀ w, ¬ s.Issues label u w) ∧
      ((sysMachine svc).exec label s).store.events u = s.store.events u) := by
  rcases exec_store svc s label with he | ⟨now, rfl, he⟩
  · rw [he]
    cases hop : s.op label with
    | none => exact .inr ⟨fun w ⟨op, _, h, _⟩ => absurd (hop.symm.trans h) (by simp), rfl⟩
    | some op =>
      change _ ∨ _ ∧ (s.store.call op).events u = _
      rw [Store.events_call]
      by_cases ht : op.target = u
      · cases hi : (s.store.reply op).issued with
        | none =>
          refine .inr ⟨fun w ⟨op', _, h, _, hi'⟩ => ?_, by simp⟩
          obtain rfl : op = op' := Option.some.inj (hop.symm.trans h)
          exact absurd (hi.symm.trans hi') (by simp)
        | some p =>
          refine .inl ⟨p.1, p.2, ⟨op, p.2, hop, ht, hi⟩, ?_⟩
          simp [Store.after, Store.events_call, ht, hi]
      · refine .inr ⟨fun w ⟨op', _, h, ht', _⟩ => ?_, by simp [ht]⟩
        obtain rfl : op = op' := Option.some.inj (hop.symm.trans h)
        exact ht ht'
  · exact .inr ⟨fun w ⟨op, _, h, _⟩ => by simp [Sys.op] at h, by rw [he]; rfl⟩

/-- No event was issued for a watch and nobody tells of one. -/
structure Silent (s : Sys) (u : String) : Prop where
  /-- No event was issued. -/
  events : s.store.events u = []
  /-- No coroutine owes a notice. -/
  owed : ∀ i n, (s.tasks i).owed = some n → n.watch.watchId ≠ u
  /-- No notice was sent. -/
  sent : s.sentFor u = []

/-- One event was issued for a watch, with the document that the notice carries. -/
structure Heard (s : Sys) (u : String) (n : Notice) : Prop where
  /-- There is the one event. -/
  events : ∃ eventId, s.store.events u = [eventId]
  /-- The notice is about this watch. -/
  watchId : n.watch.watchId = u
  /-- The notice tells the event of the document that it carries. -/
  event : eventFor n.watch.status = some n.event
  /-- The watch was created. -/
  created : u ∈ s.store.created
  /-- The document that the notice carries is the stored one. -/
  stored : ∀ w, (s.store.row u).watch = some w → w = n.watch
  /-- What is owed is this notice, and then it was not sent. -/
  owed : ∀ i n', (s.tasks i).owed = some n' → n'.watch.watchId = u → n' = n ∧ s.sentFor u = []
  /-- One coroutine owes it. -/
  owner : ∀ i j n₁ n₂, (s.tasks i).owed = some n₁ → n₁.watch.watchId = u →
    (s.tasks j).owed = some n₂ → n₂.watch.watchId = u → i = j
  /-- It was sent once or not at all. -/
  sent : s.sentFor u = [] ∨ s.sentFor u = [n]

/-- The notices about a watch after a step. -/
theorem sentFor_exec {s : Sys} {label : SysLabel} (ha : (sysMachine svc).allowed s label) (u : String) :
    ((sysMachine svc).exec label s).sentFor u = s.sentFor u ∨
    ∃ j n, (s.tasks j).owed = some n ∧ n.watch.watchId = u ∧
      ((sysMachine svc).exec label s).sentFor u = n :: s.sentFor u ∧
      (((sysMachine svc).exec label s).tasks j).owed = none := by
  rcases sent_exec ha with h | ⟨j, n, howed, h, hafter⟩
  · exact .inl (by rw [sentFor, h, sentFor])
  · by_cases hu : n.watch.watchId = u
    · exact .inr ⟨j, n, howed, hu, by simp [sentFor, h, hu], hafter⟩
    · exact .inl (by simp [sentFor, h, hu])

/-- A step that issues an event is a call of the store for an active watch. -/
theorem Issues.spec (svc : WatchService) {s : Sys} {label : SysLabel} {u : String} {w : Watch}
    (h : s.Issues label u w) :
    (∃ w₀, (s.store.row u).watch = some w₀ ∧ w₀.status = .active) ∧
      (((sysMachine svc).exec label s).store.row u).watch = some w ∧ w.status.hasEvent = true := by
  obtain ⟨op, eventId, hop, rfl, hissued⟩ := h
  obtain ⟨hactive, hstored, hevent, -⟩ := Store.issued_cases hissued
  rw [store_of_op hop]
  exact ⟨hactive, hstored, hevent⟩

/-- A step issues an event for one document. -/
theorem Issues.unique {s : Sys} {label : SysLabel} {u v : String} {w w' : Watch}
    (h : s.Issues label u w) (h' : s.Issues label v w') : w = w' := by
  obtain ⟨op, eventId, hop, -, hissued⟩ := h
  obtain ⟨op', eventId', hop', -, hissued'⟩ := h'
  obtain rfl : op = op' := Option.some.inj (hop.symm.trans hop')
  exact congrArg Prod.fst (Option.some.inj (hissued.symm.trans hissued'))

/-- The store is well formed after a step. -/
theorem keyed_exec {s : Sys} (hr : (sysMachine svc).Reach s) {label : SysLabel}
    (ha : (sysMachine svc).allowed s label) (u : String) :
    ((sysMachine svc).exec label s).store.Keyed u :=
  Store.keyed (Store.lawful_of_served (reach_store (hr.step label ha))) u

/-- A notice about a watch that is owed after a step was owed before it, or is about the document
that the step stored with its event. -/
theorem owed_or_issues {s : Sys} (hr : (sysMachine svc).Reach s) {label : SysLabel}
    (ha : (sysMachine svc).allowed s label) {j : ℕ} {n : Notice}
    (hn : (((sysMachine svc).exec label s).tasks j).owed = some n) :
    (s.tasks j).owed = some n ∨ ((∃ input offset, label = .resume j input offset) ∧
      eventFor n.watch.status = some n.event ∧ s.Issues label n.watch.watchId n.watch) := by
  rcases owed_exec ha hn with ⟨hold, -⟩ | ⟨hlabel, hevent, v, hissues⟩
  · exact .inl hold
  · have hstored := (hissues.spec svc).2.1
    obtain rfl := (keyed_exec hr ha v).row.watchId _ hstored
    exact .inr ⟨hlabel, hevent, hissues⟩

/-- Nobody tells of a watch before there is an event. -/
theorem Silent.sentFor_exec {s : Sys} {label : SysLabel} (ha : (sysMachine svc).allowed s label)
    {u : String} (h : s.Silent u) : ((sysMachine svc).exec label s).sentFor u = [] := by
  rcases Sys.sentFor_exec ha u with he | ⟨j, n, howed, hid, -⟩
  · rw [he, h.sent]
  · exact absurd hid (h.owed j n howed)

/-- A step that issues no event for a watch leaves it unannounced. -/
theorem Silent.exec {s : Sys} (hr : (sysMachine svc).Reach s) {label : SysLabel}
    (ha : (sysMachine svc).allowed s label) {u : String} (h : s.Silent u)
    (hno : ∀ w, ¬ s.Issues label u w) : ((sysMachine svc).exec label s).Silent u := by
  refine ⟨?_, fun i n hi hid => ?_, h.sentFor_exec ha⟩
  · rcases events_exec svc s label u with ⟨w, -, hissues, -⟩ | ⟨-, hevents⟩
    · exact absurd hissues (hno w)
    · rw [hevents, h.events]
  · rcases owed_or_issues hr ha hi with hold | ⟨-, -, hissues⟩
    · exact h.owed i n hold hid
    · exact hno n.watch (hid ▸ hissues)

/-- The step that issues the event: if a notice follows, the coroutine that made the call owes it. -/
theorem Silent.issue {s : Sys} (hr : (sysMachine svc).Reach s) {label : SysLabel}
    (ha : (sysMachine svc).allowed s label) {u : String} {w : Watch} (h : s.Silent u)
    (hissues : s.Issues label u w) : ∃ n, ((sysMachine svc).exec label s).Heard u n := by
  obtain ⟨-, hstored, hevent⟩ := hissues.spec svc
  obtain ⟨event, hfor⟩ : ∃ event, eventFor w.status = some event := by
    cases hw : w.status <;> simp_all [WatchStatus.hasEvent, eventFor]
  have hkeyed := keyed_exec hr ha u
  have howed : ∀ {j n}, (((sysMachine svc).exec label s).tasks j).owed = some n →
      n.watch.watchId = u → (∃ input offset, label = .resume j input offset) ∧ n = ⟨w, event⟩ := by
    rintro j ⟨w', event'⟩ hj hid
    rcases owed_or_issues hr ha hj with hold | ⟨hlabel, hfor', hissues'⟩
    · exact absurd hid (h.owed j _ hold)
    · obtain rfl : w' = w := hissues'.unique hissues
      obtain rfl : event' = event := Option.some.inj (hfor'.symm.trans hfor)
      exact ⟨hlabel, rfl⟩
  refine ⟨⟨w, event⟩, ?_, hkeyed.row.watchId w hstored, hfor, hkeyed.created (by simp [hstored]),
    fun w' hw' => Option.some.inj (hw'.symm.trans hstored),
    fun i n hi hid => ⟨(howed hi hid).2, h.sentFor_exec ha⟩,
    fun i j n₁ n₂ hi hidi hj hidj => ?_, .inl (h.sentFor_exec ha)⟩
  · rcases events_exec svc s label u with ⟨_, eventId, -, hevents⟩ | ⟨hno, -⟩
    · exact ⟨eventId, by rw [hevents, h.events]⟩
    · exact absurd hissues (hno w)
  · obtain ⟨⟨_, _, rfl⟩, -⟩ := howed hi hidi
    obtain ⟨⟨_, _, hlabel⟩, -⟩ := howed hj hidj
    injection hlabel

/-- No event is issued for a watch that is not active. -/
theorem not_issues {s : Sys} {u : String}
    (h : ∀ w, (s.store.row u).watch = some w → w.status ≠ .active) (label : SysLabel) (w : Watch) :
    ¬ s.Issues label u w := by
  intro hissues
  obtain ⟨op, eventId, -, rfl, hissued⟩ := hissues
  obtain ⟨⟨w₀, hw₀, hactive⟩, -⟩ := Store.issued_cases hissued
  exact h w₀ hw₀ hactive

/-- A watch with an event is not active. -/
theorem Heard.inactive {s : Sys} {u : String} {n : Notice} (h : s.Heard u n) :
    ∀ w, (s.store.row u).watch = some w → w.status ≠ .active := by
  intro w hw hactive
  have hevent := h.event
  rw [← h.stored w hw, hactive] at hevent
  contradiction

/-- After the event there is only the one notice: a step passes it on, sends it or loses it. -/
theorem Heard.exec {s : Sys} (hr : (sysMachine svc).Reach s) {label : SysLabel}
    (ha : (sysMachine svc).allowed s label) {u : String} {n : Notice} (h : s.Heard u n) :
    ((sysMachine svc).exec label s).Heard u n := by
  have hno := not_issues h.inactive label
  have howed : ∀ {j n'}, (((sysMachine svc).exec label s).tasks j).owed = some n' →
      n'.watch.watchId = u → (s.tasks j).owed = some n' := by
    intro j n' hj hid
    exact (owed_or_issues hr ha hj).resolve_right fun hi => hno n'.watch (hid ▸ hi.2.2)
  refine ⟨?_, h.watchId, h.event, created_exec h.created, fun w hw => ?_,
    fun i n' hi hid => ⟨(h.owed i n' (howed hi hid) hid).1, ?_⟩,
    fun i j n₁ n₂ hi hidi hj hidj => h.owner i j n₁ n₂ (howed hi hidi) hidi (howed hj hidj) hidj, ?_⟩
  · rcases events_exec svc s label u with ⟨w, -, hissues, -⟩ | ⟨-, hevents⟩
    · exact absurd hissues (hno w)
    · rw [hevents]
      exact h.events
  · rcases inactive_exec hr ha h.created h.inactive with hwatch | ⟨hwatch, -⟩
    · exact h.stored w (hwatch ▸ hw)
    · exact absurd (hwatch.symm.trans hw) (by simp)
  · -- Whoever still owes the notice is not the one that sends it now.
    rcases Sys.sentFor_exec ha u with he | ⟨j, m, hj, hidj, -, hnone⟩
    · rw [he]
      exact (h.owed i n' (howed hi hid) hid).2
    · obtain rfl := h.owner i j n' m (howed hi hid) hid hj hidj
      exact absurd (hnone.symm.trans hi) (by simp)
  · rcases Sys.sentFor_exec ha u with he | ⟨j, m, hj, hid, he, -⟩
    · rw [he]
      exact h.sent
    · obtain ⟨rfl, hsent⟩ := h.owed j m hj hid
      exact .inr (by rw [he, hsent])

/-- In every reachable state nothing is told of a watch, or there is the one notice. -/
theorem told {s : Sys} (hr : (sysMachine svc).Reach s) (u : String) :
    s.Silent u ∨ ∃ n, s.Heard u n := by
  refine hr.invariant (P := fun s => s.Silent u ∨ ∃ n, s.Heard u n) ?_ fun s label hr hs ha => ?_
  · rintro s ⟨⟨retention, -, hlog⟩, htasks, hsent, -⟩
    refine .inl ⟨by simp [Store.events, hlog], fun i n hn => ?_, by simp [sentFor, hsent]⟩
    rw [htasks i] at hn
    contradiction
  · rcases hs with hsilent | ⟨n, hheard⟩
    · by_cases hissues : ∃ w, s.Issues label u w
      · obtain ⟨w, hissues⟩ := hissues
        exact .inr (hsilent.issue hr ha hissues)
      · exact .inl (hsilent.exec hr ha (not_exists.mp hissues))
    · exact .inr ⟨n, hheard.exec hr ha⟩

/-- A watch has ended with a document: it is the stored one until a cleanup removes it, and what is
told of the watch is told with it. -/
structure Ended (s : Sys) (u : String) (w : Watch) : Prop where
  /-- The watch was created. -/
  created : u ∈ s.store.created
  /-- The document is stored, or was removed. -/
  stored : (s.store.row u).watch = some w ∨
    ((s.store.row u).watch = none ∧ ∃ e ∈ s.store.log, e.op.isCleanup = true)
  /-- A notice that is owed carries the document. -/
  owed : ∀ i n, (s.tasks i).owed = some n → n.watch.watchId = u → n.watch = w
  /-- A notice that was sent carries the document. -/
  sent : ∀ n ∈ s.sentFor u, n.watch = w
  /-- Nothing is told of a cancellation. -/
  silent : w.status = .cancelled → s.Silent u

/-- A stored terminal document is one that its watch has ended with. -/
theorem ended {s : Sys} (hr : (sysMachine svc).Reach s) {u : String} {w : Watch}
    (hw : (s.store.row u).watch = some w) : w.status = .active ∨ s.Ended u w := by
  by_cases hactive : w.status = .active
  · exact .inl hactive
  have hcreated := (Store.keyed (Store.lawful_of_served (reach_store hr)) u).created (by simp [hw])
  rcases told hr u with h | ⟨n, h⟩
  · exact .inr ⟨hcreated, .inl hw, fun i n hi hid => absurd hid (h.owed i n hi), by simp [h.sent],
      fun _ => h⟩
  · obtain rfl := h.stored w hw
    refine .inr ⟨hcreated, .inl hw, fun i n' hi hid => by rw [(h.owed i n' hi hid).1], fun n' hn' => ?_,
      fun hcancelled => ?_⟩
    · rcases h.sent with hs | hs <;> rw [hs] at hn'
      · contradiction
      · rw [List.mem_singleton.mp hn']
    · have hevent := h.event
      rw [hcancelled] at hevent
      contradiction

/-- A watch that has ended stays so. -/
theorem Ended.exec {s : Sys} (hr : (sysMachine svc).Reach s) {label : SysLabel}
    (ha : (sysMachine svc).allowed s label) {u : String} {w : Watch} (hw : w.status ≠ .active)
    (h : s.Ended u w) : ((sysMachine svc).exec label s).Ended u w := by
  have hinactive : ∀ w', (s.store.row u).watch = some w' → w'.status ≠ .active := by
    intro w' hw'
    rcases h.stored with hs | ⟨hs, -⟩
    · rwa [Option.some.inj (hw'.symm.trans hs)]
    · exact absurd (hw'.symm.trans hs) (by simp)
  have hno := not_issues hinactive label
  refine ⟨created_exec h.created, ?_, fun i n hi hid => ?_, fun n hn => ?_,
    fun hcancelled => (h.silent hcancelled).exec hr ha hno⟩
  · have hlog : ∀ e ∈ s.store.log, e ∈ ((sysMachine svc).exec label s).store.log := by
      rcases exec_store svc s label with he | ⟨now, -, he⟩ <;> rw [he]
      · cases s.op label with
        | none => exact fun e h => h
        | some op => exact fun e h => List.mem_cons_of_mem _ h
      · exact fun e h => h
    rcases inactive_exec hr ha h.created hinactive with hwatch | ⟨hwatch, op, hop, hclean⟩
    · rw [hwatch]
      exact h.stored.imp_right fun ⟨hnone, e, he, hclean⟩ => ⟨hnone, e, hlog e he, hclean⟩
    · refine .inr ⟨hwatch, ⟨s.store.now, op, s.store.reply op⟩, ?_, hclean⟩
      rw [store_of_op hop]
      exact List.mem_cons_self
  · rcases owed_or_issues hr ha hi with hold | ⟨-, -, hissues⟩
    · exact h.owed i n hold hid
    · exact absurd (hid ▸ hissues) (hno n.watch)
  · rcases Sys.sentFor_exec ha u with he | ⟨j, m, hj, hid, he, -⟩ <;> rw [he] at hn
    · exact h.sent n hn
    · rcases List.mem_cons.mp hn with rfl | hn
      · exact h.owed j n hj hid
      · exact h.sent n hn

/-- Terminal is absorbing and announced at most once. Over a run at most one terminal event is issued
for a watch and at most one notification is sent, which tells the event of the stored document.
A terminal document is the stored one in every later state, until a cleanup removes it; what is told of
the watch then or later tells the event of this document, and of a cancelled watch nothing is told. -/
theorem terminal_final {s : Sys} (hr : (sysMachine svc).Reach s) (u : String) :
    (s.store.events u).length ≤ 1 ∧ (s.sentFor u).length ≤ 1 ∧
    (∀ n ∈ s.sentFor u, eventFor n.watch.status = some n.event ∧
      ∀ w, (s.store.row u).watch = some w → w = n.watch) ∧
    ∀ w, (s.store.row u).watch = some w → w.status.isTerminal = true →
      ∀ s', (sysMachine svc).Later s s' →
        ((s'.store.row u).watch = some w ∨
          ((s'.store.row u).watch = none ∧ ∃ e ∈ s'.store.log, e.op.isCleanup = true)) ∧
        (∀ n ∈ s'.sentFor u, n.watch = w ∧ eventFor w.status = some n.event) ∧
        (w.status = .cancelled → s'.store.events u = [] ∧ s'.sentFor u = []) := by
  have hnotice : ∀ {s : Sys}, (sysMachine svc).Reach s → ∀ n ∈ s.sentFor u,
      eventFor n.watch.status = some n.event ∧
        ∀ w, (s.store.row u).watch = some w → w = n.watch := by
    intro s hr n hn
    rcases told hr u with h | ⟨m, h⟩
    · rw [h.sent] at hn
      contradiction
    · rcases h.sent with hs | hs <;> rw [hs] at hn
      · contradiction
      · obtain rfl := List.mem_singleton.mp hn
        exact ⟨h.event, h.stored⟩
  refine ⟨?_, ?_, hnotice hr, fun w hw hterminal s' hl => ?_⟩
  · rcases told hr u with h | ⟨n, h⟩
    · simp [h.events]
    · obtain ⟨eventId, hevents⟩ := h.events
      simp [hevents]
  · rcases told hr u with h | ⟨n, h⟩
    · simp [h.sent]
    · rcases h.sent with hs | hs <;> simp [hs]
  · have hactive : w.status ≠ .active := by simpa using hterminal
    have hended : s'.Ended u w := by
      refine hl.stable (P := fun s => s.Ended u w) (fun s label hr h ha => h.exec hr ha hactive) hr ?_
      exact (ended hr hw).resolve_left hactive
    refine ⟨hended.stored, fun n hn => ?_, fun hcancelled =>
      ⟨(hended.silent hcancelled).events, (hended.silent hcancelled).sent⟩⟩
    have hwatch := hended.sent n hn
    exact ⟨hwatch, hwatch ▸ (hnotice (hr.later hl) n hn).1⟩

/-- A run in which a watch reaches its deadline and its owner is told. -/
def expireRun : List SysLabel :=
  createRun false ++ [.tick 1000000000, .start 1 (.expiring "w"), .resume 1 .proceed 0,
    .resume 1 .proceed 0, .resume 1 .proceed 0]

/-- A cancellation after the deadline, and another expiry by recovery. -/
def lateRun : List SysLabel :=
  [.start 2 (.cancelling "w"), .resume 2 .proceed 0, .maintain (.expire "w" none false)]

/-- The service after the run `expireRun`. -/
def expiredSys : Sys := (sysMachine .sample).final fresh expireRun

/-- After the run `expireRun` the owner was told once, and what comes late changes nothing. -/
theorem terminal_final_late :
    expiredSys.sentFor "w" = [⟨(Watch.sample "w" false 1000000000 5).ended .expired 1000000000, .expired⟩] ∧
      (((sysMachine .sample).final expiredSys lateRun).sentFor "w").length ≤ 1 ∧
      (((sysMachine .sample).final expiredSys lateRun).store.row "w").watch =
        some ((Watch.sample "w" false 1000000000 5).ended .expired 1000000000) := by
  have hr : (sysMachine .sample).Reach expiredSys := fresh_reach.final (by decide +kernel)
  have hl : (sysMachine .sample).Later expiredSys ((sysMachine .sample).final expiredSys lateRun) :=
    .of_runs (by decide +kernel)
  refine ⟨by decide +kernel, (terminal_final (hr.later hl) "w").2.1, ?_⟩
  refine ((terminal_final hr "w").2.2.2 _ (by decide +kernel) rfl _ hl).1.resolve_right fun h => ?_
  exact absurd h.1 (by decide +kernel)

end Sys

end Dibs
