import Dibs.Redis.Calls
import Dibs.Service.Documents

/-!
# The watch service over Redis

The coroutines of the watch service over one Redis database. A call of the repository is one script,
except that a cancellation and an expiry are three round trips each, between which other coroutines run.
A native time to live counts down at the server, and a key whose time is over goes at any later moment.

The scripts write back what they are given: the sidecar of a permit and of a recorded intent is the
snapshot of its caller, and the end of a watch is made from a document that was read before. Their guards
make what they write storable all the same (`RedisService.storable`). The machine reads the documents
themselves, which is to read their texts as long as these are read back (`Stored.load_eq`).
-/

namespace Dibs

open Function (update)

/-! ## The machine -/

/-- The state of the service over Redis. -/
structure RedisService where
  now : Time
  retention : Duration
  db : Redis
  tasks : ℕ → Task
  /-- The call of `cancel_if_active` or `expire_if_eligible` that a coroutine is in. -/
  calls : ℕ → Client
  /-- The commits so far. -/
  commits : ℕ

/-- A step of the service over Redis. -/
inductive RedisServiceLabel
  | tick (now : Time)
  /-- Time passes at the server. -/
  | elapse (ms : ℤ)
  /-- A key goes whose time to live has run out. -/
  | fire (key : RedisKey)
  | start (i : ℕ) (task : Task)
  /-- The next round trip of a cancellation or an expiry. -/
  | trip (i : ℕ)
  | resume (i : ℕ) (input : Input) (offset : ℚ)
  | crash (i : ℕ)
  /-- A dispatch or a cleanup, which the recovery pass makes. -/
  | maintain (op : Op)
deriving DecidableEq

/-- The call that a coroutine makes in more than one round trip. -/
def Task.call : Task → Client
  | .cancelling u => .cancelStart u (Redis.cancelAttempts - 1)
  | .expiring u => .expireStart u none false
  | _ => .idle

/-- The calls of a recovery pass that write neither a document nor a sidecar. -/
def Op.Upkeep : Op → Prop
  | .claimDispatch _ _ _ | .markDispatched _ _ | .releaseDispatch _ | .cleanup _ _ => True
  | _ => False

/-- The calls that are one script. Recovery's repair of a marker is left to recovery. -/
def Op.IsScript : Op → Prop
  | .cancel _ | .expire _ _ _ | .synthesize _ _ => False
  | _ => True

namespace RedisService

/-- What the coroutine `i` is answered, unless its script fails, and the database that is left. A
cancellation and an expiry are over with their last round trip. -/
def answer (s : RedisService) (i : ℕ) (op : Op) : Option Reply × Redis :=
  match op with
  | .cancel _ | .expire _ _ _ => ((s.calls i).result.map .transition, s.db)
  | op => s.db.call s.retention s.now op

/-- What the coroutines read. A document under another id reads as missing. -/
def reading (s : RedisService) : Store where
  mem := { Memory.empty s.retention with
    watches := s.db.watches.filter fun u watch => watch.watchId = u
    runtimes := s.db.runtimes }
  now := s.now
  log := []

/-- Where the coroutine `i` goes. A script that fails raises, and ends it. -/
def next (svc : WatchService) (s : RedisService) (i : ℕ) (input : Input) (offset : ℚ) : Option Task :=
  match (s.tasks i).op input with
  | none => (s.tasks i).next svc s.reading input offset none
  | some op =>
    match (s.answer i op).1 with
    | none => some .idle
    | some reply => (s.tasks i).next svc s.reading input offset (some reply)

/-- The coroutine `i` is at a task, and at the call that it makes there. -/
def enter (s : RedisService) (i : ℕ) (task : Task) : RedisService :=
  { s with tasks := update s.tasks i task, calls := update s.calls i task.call }

/-- The database after the call of a step, and the commits so far. -/
def after (s : RedisService) (i : ℕ) (op : Op) : RedisService :=
  { s with
    db := (s.answer i op).2
    commits := s.commits + if (s.answer i op).1.any Reply.isCommit then 1 else 0 }

/-- The state after a coroutine is taken to its next await. -/
def resume (svc : WatchService) (s : RedisService) (i : ℕ) (input : Input) (offset : ℚ) : RedisService :=
  (((s.tasks i).op input).elim s (s.after i)).enter i ((s.next svc i input offset).getD .idle)

/-- A coroutine makes a round trip of its call. -/
def trip (s : RedisService) (i : ℕ) : RedisService :=
  let moved := (s.calls i).step s.retention s.now s.db
  { s with db := moved.db, calls := update s.calls i moved.client }

end RedisService

instance : DecidablePred Op.Upkeep
  | .claimDispatch _ _ _ | .markDispatched _ _ | .releaseDispatch _ | .cleanup _ _ =>
    inferInstanceAs (Decidable True)
  | .create _ _ | .claim _ _ _ _ _ | .begin _ | .commit _ _ _ | .cancel _ | .expire _ _ _ | .release _
  | .synthesize _ _ => inferInstanceAs (Decidable False)

/-- The machine of the service over Redis. -/
def redisServiceMachine (svc : WatchService) : Machine RedisService RedisServiceLabel where
  init s := 0 ≤ s.retention ∧ s.db = .empty ∧ (∀ i, s.tasks i = .idle) ∧ (∀ i, s.calls i = .idle) ∧
    s.commits = 0
  allowed s
    | .tick now => s.now ≤ now
    | .elapse ms => 0 ≤ ms
    | .fire key => (s.db.ttl.get? key).any (fun ms => ms ≤ 0) = true
    | .start i task => s.tasks i = .idle ∧ task.Entry
    | .trip i => (s.calls i).isFree = false
    | .resume i input offset => svc.schedule.Draws offset ∧ (s.calls i).isFree = true ∧
        ∃ task, s.next svc i input offset = some task
    | .crash _ => True
    | .maintain op => op.Upkeep
  exec
    | .tick now, s => { s with now := now }
    | .elapse ms, s => { s with db := s.db.elapse ms }
    | .fire key, s => { s with db := s.db.del key }
    | .start i task, s => s.enter i task
    | .trip i, s => s.trip i
    | .resume i input offset, s => s.resume svc i input offset
    | .crash i, s => s.enter i .idle
    | .maintain op, s => { s with db := (s.db.call s.retention s.now op).2 }

instance (svc : WatchService) (s : RedisService) : DecidablePred ((redisServiceMachine svc).allowed s)
  | .tick now => inferInstanceAs (Decidable (s.now ≤ now))
  | .elapse ms => inferInstanceAs (Decidable (0 ≤ ms))
  | .fire key => inferInstanceAs (Decidable ((s.db.ttl.get? key).any (fun ms => ms ≤ 0) = true))
  | .start i task => inferInstanceAs (Decidable (s.tasks i = .idle ∧ task.Entry))
  | .trip i => inferInstanceAs (Decidable ((s.calls i).isFree = false))
  | .resume i input offset =>
    have : Decidable (∃ task, s.next svc i input offset = some task) :=
      decidable_of_iff ((s.next svc i input offset).isSome = true) Option.isSome_iff_exists
    inferInstanceAs (Decidable ((_ ≤ offset ∧ offset ≤ _) ∧ (s.calls i).isFree = true ∧
      ∃ task, s.next svc i input offset = some task))
  | .crash _ => inferInstanceAs (Decidable True)
  | .maintain op => inferInstanceAs (Decidable op.Upkeep)

/-! ## What the scripts leave stored -/

/-- The methods of the dispatch leases change no record. -/
theorem Redis.DispatchOnly.record {db db' : Redis} (h : db.DispatchOnly db') : db'.record = db.record := by
  funext u
  rw [Redis.record, Redis.record, h.watches, h.runtimes]

namespace Stored

variable {db db' : Redis} {n : ℕ}

/-- Where one record is replaced by a storable one, everything stays storable. -/
theorem of_update (h : ∀ u, Stored u n (db.record u)) {n' : ℕ} (hn : n ≤ n') {u : String}
    {x : Option Watch × Option WatchRuntime} (hrecord : db'.record = update db.record u x)
    (hx : Stored u n' x) (v : String) : Stored v n' (db'.record v) := by
  rw [hrecord]
  rcases eq_or_ne v u with rfl | hne
  · rwa [Function.update_self]
  · rw [Function.update_of_ne hne]
    exact (h v).mono hn

/-- Where no record changes, everything stays storable. -/
theorem of_record (h : ∀ u, Stored u n (db.record u)) {n' : ℕ} (hn : n ≤ n')
    (hrecord : db'.record = db.record) (v : String) : Stored v n' (db'.record v) := by
  rw [hrecord]
  exact (h v).mono hn

/-- A sidecar may go, or a document. -/
theorem dropped {u : String} {x x' : Option Watch × Option WatchRuntime} (h : Stored u n x)
    (hwatch : x'.1 = x.1 ∨ x'.1 = none) (hruntime : x'.2 = x.2 ∨ x'.2 = none) : Stored u n x' where
  watch w hw := h.watch w (hwatch.elim (fun he => he ▸ hw) fun he => by simp [he] at hw)
  runtime r hr := h.runtime r (hruntime.elim (fun he => he ▸ hr) fun he => by simp [he] at hr)
  active w r hx hactive := by
    subst hx
    simp only [reduceCtorEq, or_false] at hwatch hruntime
    exact h.active w r (Prod.ext hwatch.symm hruntime.symm) hactive

/-- A key may go. -/
theorem del (h : ∀ u, Stored u n (db.record u)) (k : RedisKey) (v : String) :
    Stored v n ((db.del k).record v) := by
  refine (h v).dropped ?_ ?_
  all_goals
    cases k <;> simp only [Redis.record, Redis.del, Dict.get?_erase, true_or]
    split_ifs
    · exact .inr rfl
    · exact .inl rfl

/-- A watch that a cleanup takes up goes altogether, or stays. -/
theorem cleanupOne (h : ∀ u, Stored u n (db.record u)) (u v : String) :
    Stored v n ((db.cleanupOne u).record v) := by
  unfold Redis.cleanupOne
  dsimp only
  split_ifs
  · exact del (del (del h _) _) _ v
  · exact h v

/-- A cleanup keeps what is stored. -/
theorem cleanup (h : ∀ u, Stored u n (db.record u)) (batch : List String) (v : String) :
    Stored v n ((batch.foldl Redis.cleanupOne db).record v) := by
  induction batch generalizing db with
  | nil => exact h v
  | cons u batch ih => exact ih (cleanupOne h u)

/-- The end of a watch that a script writes in place of an active document, when it has not been overtaken
since its caller read the sidecar. -/
theorem finished {u : String} (h : Stored u n (db.record u)) {stored w : Watch}
    (hstored : (db.record u).1 = some stored) (hactive : stored.status = .active)
    {runtime : Option WatchRuntime} (hno : db.overtaken u (casRevision runtime) = false)
    (hid : w.watchId = u) (hw : w.Storable) (hr : ∀ r ∈ runtime, r.Within u n) {status : WatchStatus}
    (hstatus : status = .expired ∨ status = .cancelled) {moment deadline : Time}
    (hmoment : IsDatetime moment) (hdeadline : IsDatetime deadline) :
    Stored u n (some (w.ended status moment),
      (db.record u).2.bind fun _ => runtime.map (·.finished deadline)) := by
  cases hruntime : (db.record u).2 with
  | none =>
    have hnone : ∀ r ∈ (none : Option WatchRuntime), r.Within u n ∧ r.revision ≤ n := by simp
    exact ended hid hw hnone hstatus hmoment hdeadline
  | some r =>
    -- The stored revision is the one that the caller has read.
    refine ended hid hw (fun r' hr' => ⟨hr r' hr', ?_⟩) hstatus hmoment hdeadline
    obtain rfl := Option.mem_def.mp hr'
    rw [← Redis.revision_eq_of_not_overtaken hruntime hno]
    exact h.active stored r (Prod.ext hstored hruntime) hactive

/-- The intent that a script records in place of the sidecar that its caller has read. -/
theorem intended {u : String} (h : Stored u n (db.record u)) {stored : Watch}
    (hstored : (db.record u).1 = some stored) (hactive : stored.status = .active) {r : WatchRuntime}
    (hno : db.overtaken u (casRevision (some r)) = false) (hr : r.Within u n) :
    Stored u n (some stored, (db.record u).2.map fun _ => { r with cancelRequested := true }) := by
  obtain ⟨hid, hw⟩ := h.watch stored hstored
  cases hruntime : (db.record u).2 with
  | none => exact h.dropped (.inl hstored.symm) (.inr rfl)
  | some current =>
    have hrevision := Redis.revision_eq_of_not_overtaken hruntime hno
    refine live hid hw { hr with dated := { hr.dated with } } ?_
    exact hrevision ▸ h.active stored current (Prod.ext hstored hruntime) hactive

/-- A call that is one script keeps what is stored. -/
theorem call {retention : Duration} (hret : 0 ≤ retention) {now : Time}
    (h : ∀ u, Stored u n (db.record u)) {op : Op} (hop : op.Storable n) (hscript : op.IsScript)
    (hdeadline : IsDatetime (now + retention)) (v : String) :
    Stored v (n + if (db.call retention now op).1.any Reply.isCommit then 1 else 0)
      ((db.call retention now op).2.record v) := by
  have hmono : n ≤ n + if (db.call retention now op).1.any Reply.isCommit then 1 else 0 :=
    Nat.le_add_right ..
  cases op with
  | cancel | expire | synthesize => contradiction
  | create watch runtime =>
    rcases db.create_cases watch runtime with ⟨-, hrecord⟩ | hsame
    · exact of_update h hmono hrecord ((created hop).mono hmono) v
    · exact of_record h hmono (congrArg Redis.record hsame) v
  | claim u w o lease ignoreSchedule =>
    exact of_record h hmono (db.record_claimWindow now u w o lease ignoreSchedule) v
  | begin c =>
    rcases db.beginBooking_cases now c with ⟨w, r, hw, -, -, -, hrecord⟩ | hsame
    · obtain ⟨hid, hstored⟩ := (h c.watch.watchId).watch w (congrArg Prod.fst hw)
      refine of_update h hmono hrecord (Stored.mono (live hid hstored ?_ hop.revision) hmono) v
      exact { hop.runtime with dated := { hop.runtime.dated with } }
    · exact of_record h hmono (congrArg Redis.record hsame) v
  | commit c nw nr =>
    obtain ⟨hc, plan, hplan, rfl, rfl⟩ := hop
    rcases db.commitWindow_cases hret now c plan.watch plan.runtime with
      ⟨w, r, -, -, -, ⟨eventId, hreply⟩, hrecord⟩ | hsame
    · have hcount : (db.call retention now (.commit c plan.watch plan.runtime)).1.any Reply.isCommit =
          true := by
        change (Option.map Reply.commit (db.commitWindow retention now c plan.watch plan.runtime).1).any _ = _
        rw [hreply]
        rfl
      rw [if_pos hcount] at hmono ⊢
      refine of_update h hmono hrecord (committed hc hplan fun t ht => ?_) v
      split_ifs at ht
      · exact Option.some.inj ht ▸ hdeadline
      · exact hplan.runtime.dated.terminalDeleteAt t ht
    · exact of_record h hmono (congrArg Redis.record hsame) v
  | release c => exact of_record h hmono (db.record_releaseClaim c) v
  | claimDispatch marker o lease =>
    exact of_record h hmono (db.claimDispatch_only now marker o lease).record v
  | markDispatched c after =>
    exact of_record h hmono (db.markDispatched_only now c after).record v
  | releaseDispatch c => exact of_record h hmono (db.releaseDispatch_only c).record v
  | cleanup now' batchSize =>
    change Stored v _ ((db.cleanupDue now' batchSize).2.record v)
    rw [Redis.cleanupDue_snd]
    exact (cleanup h _ v).mono hmono

/-- The calls of a recovery pass keep what is stored. -/
theorem upkeep {retention : Duration} (hret : 0 ≤ retention) {now : Time}
    (h : ∀ u, Stored u n (db.record u)) {op : Op} (hop : op.Upkeep)
    (hdeadline : IsDatetime (now + retention)) (v : String) :
    Stored v n ((db.call retention now op).2.record v) := by
  have hcall : op.Storable n ∧ op.IsScript := by
    cases op with
    | claimDispatch | markDispatched | releaseDispatch | cleanup => exact ⟨trivial, trivial⟩
    | _ => contradiction
  have hcount : (db.call retention now op).1.any Reply.isCommit = false := by
    rw [Option.any_eq_false]
    intro reply hreply
    cases op with
    | claimDispatch | markDispatched | releaseDispatch =>
      obtain ⟨_, -, rfl⟩ := Option.map_eq_some_iff.mp hreply
      rfl
    | cleanup =>
      obtain rfl := Option.some.inj hreply
      rfl
    | _ => contradiction
  have hstored := call hret h hcall.1 hcall.2 hdeadline v
  rwa [hcount] at hstored

end Stored

/-! ## Runs over Redis -/

/-- What a cancellation or an expiry has read may be stored, and so may the end that it asks for. -/
def Client.Storable (retention : Duration) (n : ℕ) : Client → Prop
  | .cancelRead u _ w | .expireRead u _ _ w => w.watchId = u ∧ w.Storable
  | .cancelSend u _ w runtime moment _ => (w.watchId = u ∧ w.Storable) ∧
      (∀ r ∈ runtime, r.Within u n) ∧ IsDatetime moment ∧ IsDatetime (moment + retention)
  | .expireSend u w runtime request _ => (w.watchId = u ∧ w.Storable) ∧
      (∀ r ∈ runtime, r.Within u n) ∧ ∃ moment expected force,
        IsDatetime moment ∧ IsDatetime (moment + retention) ∧
        expireRequest retention moment u expected force w runtime = .inr request
  | .idle | .cancelStart _ _ | .expireStart _ _ _ | .answered _ => True

theorem Client.Storable.mono {retention : Duration} {n n' : ℕ} {client : Client}
    (h : client.Storable retention n) (hn : n ≤ n') : client.Storable retention n' := by
  cases client with
  | cancelSend | expireSend => exact ⟨h.1, fun r hr => (h.2.1 r hr).mono hn, h.2.2⟩
  | _ => exact h

/-- A cancellation that has returned or reads again holds nothing. -/
theorem cancelNext_storable (retention : Duration) (n : ℕ) (u : String) (attempts : ℕ) (w : Watch)
    (runtime : Option WatchRuntime) (reply : TransitionReply) :
    (cancelNext u attempts w runtime reply).Storable retention n := by
  unfold cancelNext
  split <;> trivial

/-- A call that a coroutine has not begun holds nothing. -/
theorem Task.call_storable (task : Task) (retention : Duration) (n : ℕ) :
    task.call.Storable retention n := by
  cases task <;> trivial

/-- A round trip of a cancellation or an expiry keeps what is stored. -/
theorem Client.Storable.step {retention : Duration} (hret : 0 ≤ retention) {n : ℕ} {db : Redis}
    {client : Client} (h : client.Storable retention n) (hs : ∀ u, Stored u n (db.record u)) {now : Time}
    (hnow : IsDatetime now) (hdeadline : IsDatetime (now + retention)) :
    (∀ u, Stored u n ((client.step retention now db).db.record u)) ∧
      (client.step retention now db).client.Storable retention n := by
  cases client with
  | idle | answered => exact ⟨hs, trivial⟩
  | cancelStart u attempts =>
    simp only [Client.step]
    split
    next => exact ⟨hs, trivial⟩
    next w hw =>
      split
      next => exact ⟨hs, trivial⟩
      next => exact ⟨hs, (hs u).watch w (Redis.record_of_get hw)⟩
  | cancelRead u attempts w =>
    exact ⟨hs, h, fun r hr => ((hs u).runtime r hr).2.1, hnow, hdeadline⟩
  | cancelSend u attempts w runtime moment current =>
    obtain ⟨⟨hid, hw⟩, hr, hmoment, hdeadline⟩ := h
    refine ⟨?_, cancelNext_storable ..⟩
    simp only [Client.step]
    rcases db.cancelScript_cases u (casRevision runtime) (cancelMode retention moment w runtime) with
      ⟨-, hsame⟩ | ⟨_, -, -, hsame⟩ | ⟨_, -, -, -, hsame⟩ | ⟨stored, hstored, hactive, hno, hmode⟩
    · rwa [hsame]
    · rwa [hsame]
    · rwa [hsame]
    · rcases hmode with ⟨r, hm, -, hrecord⟩ | ⟨nw, nr, ms, ttl, hm, -, hrecord⟩
      · -- The sidecar that was read has a booking in flight.
        unfold cancelMode at hm
        split at hm
        next read hread =>
          obtain rfl := CancelMode.pending.inj hm
          obtain ⟨rfl, -⟩ := Option.filter_eq_some_iff.mp hread
          exact .of_update hs le_rfl hrecord ((hs u).intended hstored hactive hno (hr read rfl))
        next => contradiction
      · unfold cancelMode at hm
        split at hm
        next => contradiction
        next =>
          obtain ⟨rfl, rfl, rfl, rfl⟩ := CancelMode.cancel.inj hm
          exact .of_update hs le_rfl (hrecord (Redis.terminalDeadlines_pos hret moment))
            ((hs u).finished hstored hactive hno hid hw hr (.inr rfl) hmoment hdeadline)
  | expireStart u expected force =>
    simp only [Client.step]
    split
    next => exact ⟨hs, trivial⟩
    next w hw =>
      split
      next => exact ⟨hs, trivial⟩
      next => exact ⟨hs, (hs u).watch w (Redis.record_of_get hw)⟩
  | expireRead u expected force w =>
    simp only [Client.step]
    split
    next => exact ⟨hs, trivial⟩
    next request hrequest =>
      exact ⟨hs, h, fun r hr => ((hs u).runtime r hr).2.1, now, expected, force, hnow, hdeadline, hrequest⟩
  | expireSend u w runtime request current =>
    obtain ⟨⟨hid, hw⟩, hr, moment, expected, force, hmoment, hdeadline, hrequest⟩ := h
    obtain ⟨hnw, hnr, httl⟩ := expireRequest_inr hrequest
    refine ⟨?_, trivial⟩
    simp only [Client.step]
    rcases db.expireScript_cases u (casRevision runtime) request.newWatch request.newRuntime
      request.eventId request.terminalDeleteMs request.retentionTtlMs with
      ⟨stored, hstored, hactive, hno, -, hrecord⟩ | ⟨-, hsame⟩
    · refine .of_update hs le_rfl (hrecord (httl ▸ Redis.terminalDeadlines_pos hret moment)) ?_
      rw [hnw, hnr]
      exact (hs u).finished hstored hactive hno hid hw hr (.inl rfl) hmoment hdeadline
    · rwa [hsame]

/-- What comes into a step from outside: a creation stores what `create` has opened, and the provider
answers validly. -/
def RedisServiceLabel.Sound (svc : WatchService) : RedisServiceLabel → Prop
  | .start _ (.creating watch runtime) => svc.Opens watch runtime
  | .resume _ input _ => input.Sound
  | _ => True

namespace RedisService

/-- A step at an instant that a `datetime` can hold, with the retention after it, and with valid data. -/
def Sound (svc : WatchService) (s : RedisService) (label : RedisServiceLabel) : Prop :=
  IsDatetime s.now ∧ IsDatetime (s.now + s.retention) ∧ label.Sound svc

/-- The documents of the service may be stored: those in the database, and those that coroutines are about
to pass to it. -/
structure Storable (s : RedisService) : Prop where
  retention : 0 ≤ s.retention
  stored : ∀ u, Stored u s.commits (s.db.record u)
  tasks : ∀ i, (s.tasks i).Storable s.commits
  calls : ∀ i, (s.calls i).Storable s.retention s.commits

variable {svc : WatchService} {s : RedisService}

/-- A coroutine goes to a task that may be stored. -/
theorem Storable.enter (h : s.Storable) (i : ℕ) {task : Task} (htask : task.Storable s.commits) :
    (s.enter i task).Storable where
  retention := h.retention
  stored := h.stored
  tasks j := by
    rcases eq_or_ne j i with rfl | hne
    · simpa [RedisService.enter] using htask
    · simpa [RedisService.enter, hne] using h.tasks j
  calls j := by
    rcases eq_or_ne j i with rfl | hne
    · simpa [RedisService.enter] using task.call_storable s.retention s.commits
    · simpa [RedisService.enter, hne] using h.calls j

/-- A call that is one script is answered by it. -/
theorem answer_of_isScript (s : RedisService) (i : ℕ) {op : Op} (h : op.IsScript) :
    s.answer i op = s.db.call s.retention s.now op := by
  cases op with
  | cancel | expire | synthesize => contradiction
  | _ => rfl

/-- A coroutine's call is one script, or it has been made before. -/
theorem isScript_of_op (s : RedisService) (i : ℕ) {task : Task} {input : Input} {op : Op}
    (h : task.op input = some op) : op.IsScript ∨ (s.answer i op).2 = s.db := by
  cases task with
  | creating | claiming | releasing | committing =>
    obtain rfl := Option.some.inj h
    exact .inl trivial
  | cancelling | expiring =>
    obtain rfl := Option.some.inj h
    exact .inr rfl
  | permitting c now slots =>
    simp only [Task.op] at h
    split_ifs at h
    obtain rfl := Option.some.inj h
    exact .inl trivial
  | _ => contradiction

/-- A call keeps what is stored. -/
theorem Storable.after (h : s.Storable) (i : ℕ) {op : Op} (hop : op.Storable s.commits)
    (hcall : op.IsScript ∨ (s.answer i op).2 = s.db) (hdeadline : IsDatetime (s.now + s.retention)) :
    (s.after i op).Storable := by
  have hcommits : s.commits ≤ (s.after i op).commits := Nat.le_add_right ..
  refine ⟨h.retention, fun u => ?_, fun j => (h.tasks j).mono hcommits,
    fun j => (h.calls j).mono hcommits⟩
  rcases hcall with hscript | hsame
  · change Stored u (s.commits + if (s.answer i op).1.any Reply.isCommit then 1 else 0)
      ((s.answer i op).2.record u)
    rw [s.answer_of_isScript i hscript]
    exact Stored.call h.retention h.stored hop hscript hdeadline u
  · change Stored u _ ((s.answer i op).2.record u)
    rw [hsame]
    exact (h.stored u).mono hcommits

/-- A claim that is issued is one on what is stored. -/
theorem Storable.claim_of_answer (h : s.Storable) {i : ℕ} {op : Op} {c : WindowClaim}
    (hc : (s.answer i op).1 = some (.claim (.owned c))) : c.Storable s.commits := by
  cases op with
  | claim u w o lease ignoreSchedule =>
    obtain ⟨result, hresult, hreply⟩ := Option.map_eq_some_iff.mp hc
    obtain rfl := Reply.claim.inj hreply
    obtain ⟨hwatch, hactive, hruntime⟩ := Redis.claimWindow_owned hresult
    exact (h.stored u).claim hwatch hruntime hactive
  | _ => simp [answer, Redis.call] at hc

/-- Where a coroutine goes may be stored. -/
theorem Storable.next (h : s.Storable) {i : ℕ} {input : Input} {offset : ℚ} (hinput : input.Sound)
    (hnow : IsDatetime s.now) {task : Task} (hnext : s.next svc i input offset = some task) :
    task.Storable s.commits := by
  unfold RedisService.next at hnext
  split at hnext
  next => exact Task.next_storable hnext (h.tasks i) hinput hnow fun c hc => by contradiction
  next op hop =>
    split at hnext
    next =>
      obtain rfl := Option.some.inj hnext
      trivial
    next reply hreply =>
      refine Task.next_storable hnext (h.tasks i) hinput hnow fun c hc => ?_
      obtain rfl := Option.some.inj hc
      exact h.claim_of_answer hreply

/-- A step of the service keeps its documents storable. -/
theorem Storable.exec (h : s.Storable) {label : RedisServiceLabel}
    (ha : (redisServiceMachine svc).allowed s label) (hsound : s.Sound svc label) :
    ((redisServiceMachine svc).exec label s).Storable := by
  obtain ⟨hnow, hdeadline, hlabel⟩ := hsound
  cases label with
  | tick now => exact ⟨h.retention, h.stored, h.tasks, h.calls⟩
  | elapse ms => exact ⟨h.retention, h.stored, h.tasks, h.calls⟩
  | fire key => exact ⟨h.retention, Stored.del h.stored key, h.tasks, h.calls⟩
  | crash i => exact h.enter i trivial
  | start i task =>
    refine h.enter i ?_
    obtain ⟨-, hentry⟩ := ha
    cases task with
    | creating => exact hlabel.storable _
    | cancelling | expiring | resolving | claiming => trivial
    | _ => contradiction
  | trip i =>
    obtain ⟨hstored, hclient⟩ := (h.calls i).step h.retention h.stored hnow hdeadline
    refine ⟨h.retention, hstored, h.tasks, fun j => ?_⟩
    rcases eq_or_ne j i with rfl | hne
    · change (update s.calls j _ j).Storable _ _
      rwa [Function.update_self]
    · change (update s.calls i _ j).Storable _ _
      rw [Function.update_of_ne hne]
      exact h.calls j
  | resume i input offset =>
    obtain ⟨-, -, task, hnext⟩ := ha
    have htask := h.next hlabel hnow hnext
    change (RedisService.enter _ i ((s.next svc i input offset).getD .idle)).Storable
    rw [hnext, Option.getD_some]
    cases hop : (s.tasks i).op input with
    | none => exact h.enter i htask
    | some op =>
      refine (h.after i ((h.tasks i).op hop) (s.isScript_of_op i hop) hdeadline).enter i ?_
      exact htask.mono (Nat.le_add_right ..)
  | maintain op => exact ⟨h.retention, Stored.upkeep h.retention h.stored ha hdeadline, h.tasks, h.calls⟩

/-- In every run with valid data the documents stay storable. -/
theorem storable (h : ((redisServiceMachine svc).restrict (Sound svc)).Reach s) : s.Storable := by
  refine h.invariant (P := Storable) ?_ ?_
  · rintro s ⟨hret, hdb, htasks, hcalls, -⟩
    refine ⟨hret, fun u => ?_, fun i => ?_, fun i => ?_⟩
    · rw [hdb]
      exact .vacant
    · rw [htasks i]
      trivial
    · rw [hcalls i]
      trivial
  · exact fun s label _ hs ha => hs.exec ha.1 ha.2

end RedisService

/-! ## What is read back -/

namespace Redis

/-- `get`, on the text that is stored: `_decode` reads a document that does not validate as missing, and
one under another id. -/
def load (db : Redis) (watchId : String) : Option Watch :=
  (((db.watches.get? watchId).map Watch.modelDumpJson).bind Watch.modelValidateJson).filter
    fun watch => watch.watchId = watchId

/-- `get_runtime`, on the text that is stored. -/
def loadRuntime (db : Redis) (watchId : String) : Option WatchRuntime :=
  ((db.runtimes.get? watchId).map WatchRuntime.modelDumpJson).bind WatchRuntime.modelValidateJson

end Redis

/-- A document and a sidecar that are valid, and that their texts give back. -/
structure ReadsBack (x : Option Watch × Option WatchRuntime) : Prop where
  watch : ∀ w, x.1 = some w → w.Valid ∧ Watch.modelValidateJson w.modelDumpJson = some w
  runtime : ∀ r, x.2 = some r → r.Valid ∧ WatchRuntime.modelValidateJson r.modelDumpJson = some r

/-- Below the limit of the models, what is stored is read back. -/
theorem Stored.readsBack {u : String} {n : ℕ} {x : Option Watch × Option WatchRuntime}
    (h : Stored u n x) (hn : n < maxCount) : ReadsBack x := by
  obtain ⟨hwatch, hruntime⟩ := h.valid hn
  constructor
  · intro w hw
    obtain ⟨hvalid, hdated⟩ := hwatch w hw
    exact ⟨hvalid, Watch.modelValidateJson_modelDumpJson hvalid hdated⟩
  · intro r hr
    obtain ⟨hvalid, hdated⟩ := hruntime r hr
    exact ⟨hvalid, WatchRuntime.modelValidateJson_modelDumpJson hvalid hdated⟩

/-- Nothing that is stored reads as missing or as anything else. -/
theorem Stored.load_eq {db : Redis} {u : String} {n : ℕ} (h : Stored u n (db.record u)) (hn : n < maxCount) :
    db.load u = db.watches.get? u ∧ db.loadRuntime u = db.runtimes.get? u := by
  have hback := h.readsBack hn
  constructor
  · cases hw : db.watches.get? u with
    | none => simp [Redis.load, hw]
    | some w =>
      simp [Redis.load, hw, (hback.watch w hw).2, Option.filter, (h.watch w hw).1]
  · cases hr : db.runtimes.get? u with
    | none => simp [Redis.loadRuntime, hr]
    | some r => simp [Redis.loadRuntime, hr, (hback.runtime r hr).2]

/-- What a call passes to the store is valid. A commit stores its sidecar at a revision of its own. -/
def Op.PassesValid : Op → Prop
  | .create watch runtime => watch.Valid ∧ runtime.Valid
  | .commit _ newWatch _ => newWatch.Valid
  | _ => True

theorem Op.Storable.passesValid {n : ℕ} {op : Op} (h : op.Storable n) : op.PassesValid := by
  cases op with
  | create => exact ⟨h.2.1.valid, h.2.2⟩
  | commit =>
    obtain ⟨-, plan, hplan, rfl, -⟩ := h
    exact hplan.watch.valid
  | _ => trivial

namespace WatchService

/-- Every document that the service stores can be read back. In every run over either store with valid
data and fewer commits than the models can count, what is passed to the store is valid, and so is all that
is stored; its text gives it back, so Redis loses no document and no sidecar. -/
theorem documents_read_back (svc : WatchService) :
    (∀ s, ((sysMachine svc).restrict (Sys.Sound svc)).Reach s → s.store.commits < maxCount →
      (∀ u, ReadsBack ((s.store.row u).watch, (s.store.row u).runtime)) ∧
        ∀ label op, (sysMachine svc).allowed s label → s.op label = some op → op.PassesValid) ∧
    ∀ s, ((redisServiceMachine svc).restrict (RedisService.Sound svc)).Reach s → s.commits < maxCount →
      (∀ u, ReadsBack (s.db.record u) ∧ s.db.load u = s.db.watches.get? u ∧
        s.db.loadRuntime u = s.db.runtimes.get? u) ∧
        ∀ i input op, (s.tasks i).op input = some op → op.PassesValid := by
  constructor
  · intro s hr hn
    have hs := Sys.storable hr
    exact ⟨fun u => (hs.stored u).readsBack hn, fun label op ha hop => (hs.op ha hop).passesValid⟩
  · intro s hr hn
    have hs := RedisService.storable hr
    exact ⟨fun u => ⟨(hs.stored u).readsBack hn, (hs.stored u).load_eq hn⟩,
      fun i input op hop => ((hs.tasks i).op hop).passesValid⟩

end WatchService

namespace RedisService

/-- The service before anything happens. -/
def fresh : RedisService := ⟨0, 60, .empty, fun _ => .idle, fun _ => .idle, 0⟩

/-- A watch that `create` opens, with its sidecar. -/
def opened : Watch × WatchRuntime :=
  openedWatch "watch_1" .sample true 0 1893542400000000 ⟨37870849, 200, false, .safetyCeiling⟩

theorem opens_opened : WatchService.sample.Opens opened.1 opened.2 := by
  have hopened : (WatchService.sample.openWatch 200 .utc 0 "watch_1" .sample true).toOption =
      some (opened.1, opened.2) := by decide +kernel
  refine ⟨⟨200, .utc, 0, "watch_1", .sample, true, ?_⟩, ?_⟩
  · cases he : WatchService.sample.openWatch 200 .utc 0 "watch_1" .sample true with
    | error e => simp [he, Except.toOption] at hopened
    | ok o => simpa [he, Except.toOption] using hopened
  · exact ⟨by decide, by decide, by decide, by simp [opened, openedWatch], by decide, by simp [opened, openedWatch]⟩

/-- The service once it has created that watch. -/
def created : RedisService :=
  (redisServiceMachine .sample).final fresh
    [.start 0 (.creating opened.1 opened.2), .resume 0 .proceed 0]

theorem created_reach : ((redisServiceMachine .sample).restrict (Sound .sample)).Reach created := by
  have hfresh : ((redisServiceMachine .sample).restrict (Sound .sample)).Reach fresh :=
    .init ⟨by decide, rfl, fun _ => rfl, fun _ => rfl, rfl⟩
  have hstart : ((redisServiceMachine .sample).restrict (Sound .sample)).allowed fresh
      (.start 0 (.creating opened.1 opened.2)) :=
    ⟨by decide +kernel, by decide, by decide, opens_opened⟩
  have hresume : ((redisServiceMachine .sample).restrict (Sound .sample)).allowed
      (fresh.enter 0 (.creating opened.1 opened.2)) (.resume 0 .proceed 0) :=
    ⟨by decide +kernel, by decide, by decide, trivial⟩
  exact (hfresh.step _ hstart).step _ hresume

end RedisService

/-- A watch that the service has created is read from Redis as it was stored. -/
theorem WatchService.documents_read_back_created :
    RedisService.created.db.load "watch_1" = some RedisService.opened.1 ∧
      RedisService.created.db.loadRuntime "watch_1" = some RedisService.opened.2 := by
  obtain ⟨-, hredis⟩ := documents_read_back .sample
  obtain ⟨-, hwatch, hruntime⟩ :=
    (hredis RedisService.created RedisService.created_reach (by decide +kernel)).1 "watch_1"
  exact ⟨hwatch.trans (by decide +kernel), hruntime.trans (by decide +kernel)⟩

end Dibs
