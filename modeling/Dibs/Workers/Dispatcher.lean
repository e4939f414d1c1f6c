import Dibs.Store.Dispatching

/-!
# Dispatchers over one in-memory store

`WatchScheduleDispatcher` of `backend/workers/dispatcher.py`, one await at a time: a `DispatchTask` is a
sweep suspended at an await, and `DispatchTask.next` what it does from there to its next one. Any number
of dispatchers run over one store, interleaved with the calls of the service, and stop anywhere. What was
handed to the queue is kept with the claim that it was handed over under.

The leases are those of `Store/Dispatching.lean`; a dispatcher adds that each claim is published once, so
the task ids it makes of claims are never used twice.
-/

namespace Dibs

/-- The configuration of a `WatchScheduleDispatcher`. -/
structure Dispatcher where
  ownerId : String
  horizon : Duration
  lease : Duration
  recoveryGrace : Duration
  batchSize : ℕ

/-- `due_schedule_markers`: the markers that have entered the horizon, earliest first, at most `limit`. -/
def Memory.dueScheduleMarkers (m : Memory) (now : Time) (horizon : Duration) (limit : ℕ) :
    List ScheduleMarker :=
  let due := (m.markers.entries.map Prod.snd).filter fun k => decide (k.scheduledFor ≤ now + horizon)
  (due.mergeSort fun a b => decide (a.scheduledFor ≤ b.scheduledFor)).take limit

/-- `_task_id`: the deterministic id of a publication, from the window and the generation. -/
def DispatchClaim.taskId (c : DispatchClaim) : String :=
  "dibs-poll:" ++ c.windowId ++ ":" ++ toString c.generation

/-- The arguments of one `enqueue_watch_poll`. -/
structure QueuedPoll where
  watchId : String
  windowId : String
  delaySeconds : ℚ
  dueAt : Time
  taskId : String
deriving DecidableEq

/-- What `_dispatch_one` hands to the queue. -/
def queuedPoll (marker : ScheduleMarker) (claim : DispatchClaim) (now : Time) : QueuedPoll where
  watchId := marker.watchId
  windowId := marker.windowId
  delaySeconds := max 0 (totalSeconds (marker.scheduledFor - now))
  dueAt := marker.scheduledFor
  taskId := claim.taskId

/-- Until when a publication that was accepted defers the next one. -/
def Dispatcher.redispatchAfter (d : Dispatcher) (marker : ScheduleMarker) (now : Time) : Time :=
  max marker.scheduledFor now + d.recoveryGrace

/-- A sweep of a dispatcher at an await, with the instant that it started at and the markers left. -/
inductive DispatchTask
  /-- There is no sweep. -/
  | idle
  /-- `dispatch_due`, before `due_schedule_markers`. -/
  | reading (now : Time)
  /-- `_dispatch_one`, before `claim_dispatch`. -/
  | claiming (now : Time) (marker : ScheduleMarker) (rest : List ScheduleMarker)
  /-- Before `enqueue_watch_poll`. -/
  | publishing (now : Time) (claim : DispatchClaim) (marker : ScheduleMarker)
      (rest : List ScheduleMarker)
  /-- Before `mark_dispatched`. -/
  | marking (now : Time) (claim : DispatchClaim) (redispatchAfter : Time) (rest : List ScheduleMarker)
  /-- Before `release_dispatch`. -/
  | releasing (now : Time) (claim : DispatchClaim) (rest : List ScheduleMarker)
deriving DecidableEq

/-- The loop of `dispatch_due`. -/
def DispatchTask.sweep (now : Time) : List ScheduleMarker → DispatchTask
  | [] => .idle
  | marker :: rest => .claiming now marker rest

/-- The repository method that a sweep awaits. -/
def DispatchTask.op (d : Dispatcher) : DispatchTask → Option Op
  | .claiming _ marker _ => some (.claimDispatch marker d.ownerId d.lease)
  | .marking _ claim redispatchAfter _ => some (.markDispatched claim redispatchAfter)
  | .releasing _ claim _ => some (.releaseDispatch claim)
  | .idle | .reading _ | .publishing _ _ _ _ => none

/-- The next await of a sweep; the queue accepts a publication or raises. -/
def DispatchTask.next (d : Dispatcher) (s : Store) (accepted : Bool) (reply : Option Reply) :
    DispatchTask → DispatchTask
  | .idle => .reading s.now
  | .reading now => .sweep now (s.mem.dueScheduleMarkers now d.horizon d.batchSize)
  | .claiming now marker rest =>
    match reply with
    | some (.dispatch (.claimed claim)) => .publishing now claim marker rest
    | _ => .sweep now rest
  | .publishing now claim marker rest =>
    if accepted then .marking now claim (d.redispatchAfter marker now) rest
    else .releasing now claim rest
  | .marking now _ _ rest | .releasing now _ rest => .sweep now rest

/-- The claim that a sweep holds. -/
def DispatchTask.claim : DispatchTask → Option DispatchClaim
  | .publishing _ claim _ _ | .marking _ claim _ _ | .releasing _ claim _ => some claim
  | .idle | .reading _ | .claiming _ _ _ => none

/-- The claim that a sweep is about to publish under. -/
def DispatchTask.unpublished : DispatchTask → Option DispatchClaim
  | .publishing _ claim _ _ => some claim
  | _ => none

/-- A poll that was handed to the queue, with the claim that it was handed over under. -/
structure DispatchedPoll where
  claim : DispatchClaim
  poll : QueuedPoll
deriving DecidableEq

/-- What a sweep hands to the queue in its next step. -/
def DispatchTask.poll : DispatchTask → Option DispatchedPoll
  | .publishing now claim marker _ => some ⟨claim, queuedPoll marker claim now⟩
  | _ => none

/-- The store, the dispatchers, and what they handed to the queue, newest first. -/
structure DispatchSys where
  store : Store
  tasks : ℕ → DispatchTask
  published : List DispatchedPoll

/-- A step: the clock moves, the service makes a call, a dispatcher goes on to its next await, or stops
where it stands. -/
inductive DispatchLabel
  | tick (now : Time)
  | serve (op : Op)
  | sweep (i : ℕ) (accepted : Bool)
  | crash (i : ℕ)

namespace DispatchSys

/-- The call of the store that a step makes. -/
def op (conf : ℕ → Dispatcher) (s : DispatchSys) : DispatchLabel → Option Op
  | .serve op => some op
  | .sweep i _ => (s.tasks i).op (conf i)
  | .tick _ | .crash _ => none

end DispatchSys

/-- The machine of dispatchers with their configurations. -/
def dispatchMachine (conf : ℕ → Dispatcher) : Machine DispatchSys DispatchLabel where
  init s := (∃ retention, s.store.mem = .empty retention ∧ s.store.log = []) ∧
    (∀ i, s.tasks i = .idle) ∧ s.published = []
  allowed s
    | .tick now => s.store.now ≤ now
    | .serve op => Served s.store op ∧ op.isDispatch = false
    | .sweep _ _ | .crash _ => True
  exec
    | .tick now, s => { s with store := { s.store with now := now } }
    | .serve op, s => { s with store := s.store.call op }
    | .sweep i accepted, s =>
      { store := match (s.tasks i).op (conf i) with
          | some op => s.store.call op
          | none => s.store
        tasks := Function.update s.tasks i ((s.tasks i).next (conf i) s.store accepted
          (((s.tasks i).op (conf i)).map s.store.reply))
        published := (s.tasks i).poll.toList ++ s.published }
    | .crash i, s => { s with tasks := Function.update s.tasks i .idle }

/-- A task id determines its window and its generation. -/
theorem taskId_inj {c c' : DispatchClaim} (h : c.taskId = c'.taskId) :
    "dibs-poll:" ++ c.windowId = "dibs-poll:" ++ c'.windowId ∧ c.generation = c'.generation :=
  windowIdFor_inj h

/-- A sweep holds a claim because it held it before, or was just granted it. -/
theorem DispatchTask.claim_next {d : Dispatcher} {s : Store} {accepted : Bool} {reply : Option Reply}
    {task : DispatchTask} {c : DispatchClaim} (h : (task.next d s accepted reply).claim = some c) :
    task.claim = some c ∨ reply = some (.dispatch (.claimed c)) := by
  have hsweep : ∀ now markers, (DispatchTask.sweep now markers).claim = none := by
    intro now markers
    cases markers <;> rfl
  cases task with
  | idle => contradiction
  | reading now => simp [next, hsweep] at h
  | claiming now marker rest =>
    simp only [next] at h
    split at h
    · obtain rfl := Option.some.inj h
      exact .inr rfl
    · simp [hsweep] at h
  | publishing now claim marker rest =>
    simp only [next] at h
    split_ifs at h <;> exact .inl h
  | marking now claim redispatchAfter rest => simp [next, hsweep] at h
  | releasing now claim rest => simp [next, hsweep] at h

/-- A sweep is about to publish under a claim only when it was just granted it. -/
theorem DispatchTask.unpublished_next {d : Dispatcher} {s : Store} {accepted : Bool}
    {reply : Option Reply} {task : DispatchTask} {c : DispatchClaim}
    (h : (task.next d s accepted reply).unpublished = some c) :
    reply = some (.dispatch (.claimed c)) ∧ task.poll = none := by
  have hsweep : ∀ now markers, (DispatchTask.sweep now markers).unpublished = none := by
    intro now markers
    cases markers <;> rfl
  cases task with
  | idle => contradiction
  | claiming now marker rest =>
    simp only [next] at h
    split at h
    · obtain rfl := Option.some.inj h
      exact ⟨rfl, rfl⟩
    · simp [hsweep] at h
  | publishing now claim marker rest =>
    simp only [next] at h
    split_ifs at h <;> contradiction
  | reading | marking | releasing => simp [next, hsweep] at h

namespace DispatchSys

variable {conf : ℕ → Dispatcher}

/-- The dispatchers agree with the store: the claims that they hold were issued, and each is published
once. -/
structure Agrees (s : DispatchSys) : Prop where
  /-- A claim that is held was issued. -/
  held : ∀ i c, (s.tasks i).claim = some c → c ∈ s.store.dispatched
  /-- A claim that is about to be published was not. -/
  unpublished : ∀ i c, (s.tasks i).unpublished = some c → c ∉ s.published.map DispatchedPoll.claim
  /-- No two dispatchers are about to publish under one claim. -/
  distinct : ∀ i j c, (s.tasks i).unpublished = some c → (s.tasks j).unpublished = some c → i = j
  /-- What was published was published under an issued claim, with its task id. -/
  published : ∀ p ∈ s.published, p.claim ∈ s.store.dispatched ∧ p.poll.taskId = p.claim.taskId
  /-- Each claim was published once. -/
  nodup : (s.published.map DispatchedPoll.claim).Nodup

/-- The claim that a sweep is about to publish under is one that it holds. -/
theorem claim_of_unpublished {task : DispatchTask} {c : DispatchClaim} (h : task.unpublished = some c) :
    task.claim = some c := by
  cases task <;> first | exact h | contradiction

/-- What a sweep publishes. -/
theorem poll_cases (task : DispatchTask) :
    task.poll = none ∨ ∃ p, task.poll = some p ∧ task.unpublished = some p.claim ∧
      p.poll.taskId = p.claim.taskId := by
  cases task with
  | publishing now claim marker rest => exact .inr ⟨_, rfl, rfl, rfl⟩
  | _ => exact .inl rfl

/-- Issued dispatch claims stay issued. -/
theorem dispatched_mono (s : Store) (op : Op) : s.dispatched ⊆ (s.call op).dispatched := by
  rcases s.dispatched_call op with ⟨c, -, hl⟩ | ⟨hl, -⟩ <;> rw [hl]
  · exact List.subset_cons_self ..
  · exact fun _ h => h

/-- The store call of a sweep is one of those under which the leases are sound. -/
theorem Agrees.dispatches {s : DispatchSys} (h : s.Agrees) {i : ℕ} {op : Op}
    (hop : (s.tasks i).op (conf i) = some op) : Dispatches s.store op := by
  have hheld := h.held i
  cases htask : s.tasks i with
  | claiming now marker rest =>
    rw [htask] at hop
    obtain rfl := Option.some.inj hop
    exact ⟨⟨⟨trivial, trivial⟩, trivial⟩, by simp⟩
  | marking now claim after rest =>
    rw [htask] at hop hheld
    obtain rfl := Option.some.inj hop
    refine ⟨⟨⟨trivial, trivial⟩, trivial⟩, fun c hc => hheld c ?_⟩
    rcases hc with ⟨after', hc⟩ | hc
    · obtain ⟨rfl, -⟩ := Op.markDispatched.inj hc
      rfl
    · contradiction
  | releasing now claim rest =>
    rw [htask] at hop hheld
    obtain rfl := Option.some.inj hop
    refine ⟨⟨⟨trivial, trivial⟩, trivial⟩, fun c hc => hheld c ?_⟩
    rcases hc with ⟨after', hc⟩ | hc
    · contradiction
    · obtain rfl := Op.releaseDispatch.inj hc
      rfl
  | idle | reading | publishing =>
    rw [htask] at hop
    contradiction

/-- A step keeps the agreement of the dispatchers with the store. -/
theorem Agrees.exec {s : DispatchSys} (hr : (storeMachine Dispatches).Reach s.store) (h : s.Agrees)
    {label : DispatchLabel} : ((dispatchMachine conf).exec label s).Agrees := by
  cases label with
  | tick now => exact ⟨h.held, h.unpublished, h.distinct, h.published, h.nodup⟩
  | serve op =>
    have hmono := dispatched_mono s.store op
    exact ⟨fun i c hc => hmono (h.held i c hc), h.unpublished, h.distinct,
      fun p hp => ⟨hmono (h.published p hp).1, (h.published p hp).2⟩, h.nodup⟩
  | crash i =>
    have htask : ∀ j c, (Function.update s.tasks i .idle j).claim = some c → (s.tasks j).claim = some c := by
      intro j c hc
      by_cases hj : j = i
      · subst hj
        rw [Function.update_self] at hc
        contradiction
      · rwa [Function.update_of_ne hj] at hc
    have hunpublished : ∀ j c, (Function.update s.tasks i .idle j).unpublished = some c →
        (s.tasks j).unpublished = some c := by
      intro j c hc
      by_cases hj : j = i
      · subst hj
        rw [Function.update_self] at hc
        contradiction
      · rwa [Function.update_of_ne hj] at hc
    exact ⟨fun j c hc => h.held j c (htask j c hc),
      fun j c hc => h.unpublished j c (hunpublished j c hc),
      fun j k c hc hc' => h.distinct j k c (hunpublished j c hc) (hunpublished k c hc'), h.published,
      h.nodup⟩
  | sweep i accepted =>
    generalize hs' : (dispatchMachine conf).exec (.sweep i accepted) s = s'
    have hself : s'.tasks i = (s.tasks i).next (conf i) s.store accepted
        (((s.tasks i).op (conf i)).map s.store.reply) := by
      rw [← hs']
      exact Function.update_self ..
    have hother : ∀ j, j ≠ i → s'.tasks j = s.tasks j := by
      intro j hj
      rw [← hs']
      exact Function.update_of_ne hj ..
    have hpublished : s'.published = (s.tasks i).poll.toList ++ s.published := by
      rw [← hs']
      rfl
    have hmono : s.store.dispatched ⊆ s'.store.dispatched := by
      rw [← hs']
      show s.store.dispatched ⊆ (match (s.tasks i).op (conf i) with
        | some op => s.store.call op
        | none => s.store).dispatched
      split
      · exact dispatched_mono s.store _
      · exact fun _ hc => hc
    -- A claim that the sweep was just granted is a new one.
    have hgranted : ∀ c, ((s.tasks i).op (conf i)).map s.store.reply = some (.dispatch (.claimed c)) →
        c ∈ s'.store.dispatched ∧ c ∉ s.store.dispatched := by
      intro c hc
      obtain ⟨op, hop, hreply⟩ := Option.map_eq_some_iff.mp hc
      refine ⟨?_, (Store.claimed_again hr hreply).2.2⟩
      rw [← hs']
      show c ∈ (match (s.tasks i).op (conf i) with
        | some op => s.store.call op
        | none => s.store).dispatched
      rw [hop]
      show c ∈ (s.store.call op).dispatched
      rw [Store.dispatched_of_claimed hreply]
      exact List.mem_cons_self
    have hissued : ∀ c, c ∈ s.published.map DispatchedPoll.claim → c ∈ s.store.dispatched := by
      intro c hc
      obtain ⟨p, hp, rfl⟩ := List.mem_map.mp hc
      exact (h.published p hp).1
    have hnew : ∀ c, (s'.tasks i).unpublished = some c → c ∉ s.store.dispatched ∧
        s'.published = s.published := by
      intro c hc
      rw [hself] at hc
      obtain ⟨hreply, hpoll⟩ := DispatchTask.unpublished_next hc
      exact ⟨(hgranted c hreply).2, by rw [hpublished, hpoll]; rfl⟩
    refine ⟨fun j c hc => ?_, fun j c hc => ?_, fun j k c hc hc' => ?_, fun p hp => ?_, ?_⟩
    · by_cases hj : j = i
      · subst hj
        rw [hself] at hc
        rcases DispatchTask.claim_next hc with hold | hreply
        · exact hmono (h.held j c hold)
        · exact (hgranted c hreply).1
      · rw [hother j hj] at hc
        exact hmono (h.held j c hc)
    · by_cases hj : j = i
      · subst hj
        obtain ⟨hfresh, hsame⟩ := hnew c hc
        rw [hsame]
        exact fun hmem => hfresh (hissued c hmem)
      · rw [hother j hj] at hc
        rw [hpublished]
        rcases poll_cases (s.tasks i) with hnone | ⟨p, hp, hunpublished, -⟩
        · rw [hnone]
          exact h.unpublished j c hc
        · rw [hp]
          refine List.not_mem_cons_of_ne_of_not_mem ?_ (h.unpublished j c hc)
          rintro rfl
          exact hj (h.distinct j i _ hc hunpublished)
    · by_cases hj : j = i <;> by_cases hk : k = i
      · rw [hj, hk]
      · subst hj
        rw [hother k hk] at hc'
        exact absurd (h.held k c (claim_of_unpublished hc')) (hnew c hc).1
      · subst hk
        rw [hother j hj] at hc
        exact absurd (h.held j c (claim_of_unpublished hc)) (hnew c hc').1
      · rw [hother j hj] at hc
        rw [hother k hk] at hc'
        exact h.distinct j k c hc hc'
    · rw [hpublished] at hp
      rcases List.mem_append.mp hp with hp | hp
      · rcases poll_cases (s.tasks i) with hnone | ⟨p', hp', hunpublished, htaskId⟩
        · rw [hnone] at hp
          contradiction
        · rw [hp'] at hp
          obtain rfl : p = p' := by simpa using hp
          exact ⟨hmono (h.held i _ (claim_of_unpublished hunpublished)), htaskId⟩
      · exact ⟨hmono (h.published p hp).1, (h.published p hp).2⟩
    · rw [hpublished]
      rcases poll_cases (s.tasks i) with hnone | ⟨p, hp, hunpublished, -⟩
      · rw [hnone]
        exact h.nodup
      · rw [hp]
        exact List.nodup_cons.mpr ⟨h.unpublished i _ hunpublished, h.nodup⟩

/-- In every reachable state the dispatchers agree with the store, whose runs are those under which the
leases are sound. -/
theorem agrees_and_store {s : DispatchSys} (hr : (dispatchMachine conf).Reach s) :
    s.Agrees ∧ (storeMachine Dispatches).Reach s.store := by
  refine hr.invariant (P := fun s => s.Agrees ∧ (storeMachine Dispatches).Reach s.store) ?_ ?_
  · rintro s ⟨hstore, htasks, hpublished⟩
    refine ⟨⟨fun i c hc => ?_, fun i c hc => ?_, fun i j c hc => ?_, ?_, ?_⟩, .init hstore⟩
    · rw [htasks i] at hc
      contradiction
    · rw [htasks i] at hc
      contradiction
    · rw [htasks i] at hc
      contradiction
    · simp [hpublished]
    · simp [hpublished]
  · rintro s label - ⟨h, hr⟩ ha
    refine ⟨h.exec hr, ?_⟩
    cases label with
    | tick now => exact hr.step (M := storeMachine Dispatches) (.tick now) ha
    | serve op =>
      refine hr.step (M := storeMachine Dispatches) (.call op) ⟨ha.1, fun c hc => ?_⟩
      have hno : op.isDispatch = false := ha.2
      rcases hc with ⟨after, rfl⟩ | rfl <;> contradiction
    | crash i => exact hr
    | sweep i accepted =>
      show (storeMachine Dispatches).Reach (match (s.tasks i).op (conf i) with
        | some op => s.store.call op
        | none => s.store)
      split
      · rename_i op hop
        exact hr.step (M := storeMachine Dispatches) (.call op) (h.dispatches hop)
      · exact hr

/-- What follows a reachable state of the dispatchers follows its store. -/
theorem later_store {s s' : DispatchSys} (hr : (dispatchMachine conf).Reach s)
    (hl : (dispatchMachine conf).Later s s') : (storeMachine Dispatches).Later s.store s'.store := by
  refine hl.map (N := storeMachine Dispatches) (f := DispatchSys.store) (fun s label hr ha => ?_) hr
  cases label with
  | tick now => exact .single ⟨.tick now, ha, rfl⟩
  | serve op =>
    refine .single ⟨.call op, ⟨ha.1, fun c hc => ?_⟩, rfl⟩
    have hno : op.isDispatch = false := ha.2
    rcases hc with ⟨after, rfl⟩ | rfl <;> contradiction
  | crash i => exact .refl
  | sweep i accepted =>
    show (storeMachine Dispatches).Later s.store (match (s.tasks i).op (conf i) with
      | some op => s.store.call op
      | none => s.store)
    split
    · rename_i op hop
      exact .single ⟨.call op, (agrees_and_store hr).1.dispatches hop, rfl⟩
    · exact .refl

/-- A created watch that is not active is not dispatched any more. -/
theorem not_claimed_of_inactive {s s' : Store} (hr : (storeMachine Dispatches).Reach s)
    (hl : (storeMachine Dispatches).Later s s') {u : String} (hu : u ∈ s.created)
    (h : ∀ w, (s.row u).watch = some w → w.status ≠ .active) {op : Op} {c : DispatchClaim}
    (hreply : s'.reply op = .dispatch (.claimed c)) : c.watchId ≠ u := by
  have hstable : u ∈ s'.created ∧ ∀ w, (s'.row u).watch = some w → w.status ≠ .active := by
    refine hl.stable (P := fun s => u ∈ s.created ∧ ∀ w, (s.row u).watch = some w → w.status ≠ .active)
      ?_ hr ⟨hu, h⟩
    rintro s label - ⟨hu, h⟩ ha
    cases label with
    | tick now => exact ⟨hu, h⟩
    | call op =>
      refine ⟨Store.created_call op hu, fun w hw => ?_⟩
      change ((s.call op).row u).watch = some w at hw
      rcases Store.inactive_call ha.1.1 hu h with hwatch | ⟨hwatch, -⟩ <;> rw [hwatch] at hw
      · exact h w hw
      · contradiction
  rintro rfl
  obtain ⟨-, -, watch, -, -, -, -, hwatch, hactive, -⟩ := Store.claimed_cases hreply
  exact hstable.2 watch hwatch hactive

/-- Dispatch is single-flight per window. In every interleaving of dispatchers, which may be delayed or
stop anywhere, with the calls of the service: the generations issued for a watch increase; at most one
dispatch claim on a window holds; a holder whose generation was superseded changes nothing by a mark or a
release; a window is claimed again only after every earlier claim on it has run out, and never after it
was committed or its watch left the active state; and no two publications have the same task id. -/
theorem dispatch_single_flight {s : DispatchSys} (hr : (dispatchMachine conf).Reach s) :
    (∀ u, (s.store.dispatchedFor u).Pairwise fun c c' => c'.generation < c.generation) ∧
    (∀ c ∈ s.store.dispatched, ∀ c' ∈ s.store.dispatched, c.windowId = c'.windowId →
      s.store.Live c → s.store.Live c' → c = c') ∧
    (∀ c ∈ s.store.dispatched, ∀ c' ∈ s.store.dispatched, c.watchId = c'.watchId →
      c.generation < c'.generation →
        (∀ after, s.store.mem.markDispatched c after = (false, s.store.mem)) ∧
          s.store.mem.releaseDispatch c = (false, s.store.mem)) ∧
    (∀ op c', s.store.reply op = .dispatch (.claimed c') →
      (∀ c ∈ s.store.dispatched, c.windowId = c'.windowId → s.store.RunOut c) ∧
        c'.windowId ∉ s.store.committed.map WindowClaim.windowId) ∧
    (∀ u ∈ s.store.created, (∀ w, (s.store.row u).watch = some w → w.status ≠ .active) →
      ∀ s', (dispatchMachine conf).Later s s' →
        ∀ op c, s'.store.reply op = .dispatch (.claimed c) → c.watchId ≠ u) ∧
    (s.published.map fun p => p.poll.taskId).Nodup := by
  obtain ⟨hagrees, hstore⟩ := agrees_and_store hr
  refine ⟨fun u => (Store.dispatching hstore u).decreasing,
    fun c hc c' hc' hwindow => Store.live_unique hstore hc hc' hwindow,
    fun c hc c' hc' hu hlt => Store.superseded_refused hstore hc hc' hu hlt,
    fun op c' hreply => ?_, fun u hu h s' hl op c hreply =>
      not_claimed_of_inactive hstore (later_store hr hl) hu h hreply, ?_⟩
  · obtain ⟨hout, hcommitted, -⟩ := Store.claimed_again hstore hreply
    exact ⟨hout, hcommitted⟩
  · refine List.pairwise_map.mpr ((List.pairwise_map.mp hagrees.nodup).imp_of_mem ?_)
    intro p p' hp hp' hne he
    obtain ⟨hissued, hid⟩ := hagrees.published p hp
    obtain ⟨hissued', hid'⟩ := hagrees.published p' hp'
    obtain ⟨hwindow, hgeneration⟩ := taskId_inj (hid.symm.trans (he.trans hid'))
    have hwindow : p.claim.windowId = p'.claim.windowId :=
      String.toList_inj.mp (by simpa using congrArg String.toList hwindow)
    have hu := Store.watchId_of_window hstore hissued hissued' hwindow
    exact hne (Store.dispatched_eq hstore hissued hissued' hu hgeneration)

/-- Two dispatchers with a lease of thirty seconds. -/
def pair (i : ℕ) : Dispatcher := ⟨if i = 0 then "a" else "b", 60000000, 30000000, 60000000, 256⟩

/-- A run in which a dispatcher is overtaken between its claim and its publication. -/
def overtaken : List DispatchLabel :=
  [.serve (.create Store.firstClaim.watch Store.firstClaim.runtime), .sweep 0 true, .sweep 0 true, .sweep 0 true,
    .tick 31000000, .sweep 1 true, .sweep 1 true, .sweep 1 true, .sweep 0 true, .sweep 0 true,
    .sweep 1 true, .sweep 1 true]

/-- The dispatchers before anything happens. -/
def fresh : DispatchSys := ⟨⟨Memory.empty 60, 0, []⟩, fun _ => .idle, []⟩

/-- In the run `overtaken` both dispatchers publish the first window, under different task ids. -/
theorem dispatch_single_flight_overtaken :
    let published := ((dispatchMachine pair).final fresh overtaken).published
    published.length = 2 ∧ (published.map fun p => p.poll.taskId).Nodup := by
  have hserved : Served fresh.store (.create Store.firstClaim.watch Store.firstClaim.runtime) :=
    ⟨⟨trivial, fun _ => by simp [Store.created, fresh]⟩, rfl, by simp [Store.firstClaim, Watch.sample], 5,
      true, none, rfl⟩
  have htick : ((dispatchMachine pair).final fresh (overtaken.take 4)).store.now ≤ 31000000 := by
    decide +kernel
  have hruns : (dispatchMachine pair).Runs fresh overtaken :=
    ⟨⟨hserved, rfl⟩, trivial, trivial, trivial, htick, trivial, trivial, trivial, trivial, trivial, trivial,
      trivial, trivial⟩
  have h0 : (dispatchMachine pair).Reach fresh := .init ⟨⟨60, rfl, rfl⟩, fun _ => rfl, rfl⟩
  exact ⟨by decide +kernel, (dispatch_single_flight (h0.final hruns)).2.2.2.2.2⟩

end DispatchSys

end Dibs
