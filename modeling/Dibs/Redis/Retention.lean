import Dibs.Recovery.Database
import Dibs.Redis.Races
import Dibs.Service.Creation

/-!
# What is left of a watch in Redis

The history of one watch in `RedisWatchRepository`, call after call, from its creation to its end: a
`delete`, or a `cleanup_due` that consumes its entry of the terminal index. `Redis.NothingLeft` is what
the end should leave: no key with the id in its name, the dispatch leases apart that still count down
their own time to live, and no index with the id in it.

`Redis.Accounted` is what every call keeps. The key that neither end deletes is the fence of the
dispatches, and the first dispatch claim creates it; a cleanup that comes after the native time to live
has removed the document finds nothing that it may delete (`nothingLeft_iff`).
-/

namespace Dibs

namespace Redis

/-- `delete`. -/
def delete (db : Redis) (watchId : String) : Bool × Redis :=
  let found := db.watches.contains watchId
  let db := ((db.del (.watch watchId)).del (.runtime watchId)).del (.claim watchId)
  (found, { db with
    fence := db.fence.erase watchId
    all := db.all.erase watchId
    active := db.active.erase watchId
    schedule := db.schedule.erase watchId
    terminal := db.terminal.erase watchId })

/-- The ids that `CLEANUP_DUE` takes up. A `LIMIT` that is negative is none. -/
def dueBatch (db : Redis) (now : Time) (batchSize : ℤ) : List String :=
  let due := db.terminal.rangeByScore (toMs now)
  if batchSize < 0 then due else due.take batchSize.toNat

/-- `cleanup_due`. -/
def cleanupDue (db : Redis) (now : Time) (batchSize : ℤ) : CleanupResult × Redis :=
  let out := (db.dueBatch now batchSize).foldl
    (fun done watchId =>
      (if done.2.isFinished watchId then done.1 + 1 else done.1, done.2.cleanupOne watchId)) (0, db)
  (⟨out.1, !(out.2.terminal.rangeByScore (toMs now)).isEmpty⟩, out.2)

/-- The tests that `CLAIM_DISPATCH` makes before it raises the fence of the dispatches. -/
def admitsDispatch (db : Redis) (nowMs : ℤ) (marker : ScheduleMarker) : Bool :=
  (db.watches.get? marker.watchId).any (fun w => w.status = .active) &&
    (db.runtimes.get? marker.watchId).any (fun r => r.windowId = some marker.windowId) &&
    db.schedule.contains marker.watchId &&
    (db.dispatches.get? (marker.watchId, dispatchWindowHash marker.windowId)).elim (some false)
      (liveClaim · nowMs) = some false

end Redis

/-- What can happen in the history of one watch after its creation: a call with the instant that it
reads, or something at the server. -/
inductive WatchCall (u : String)
  | claimWindow (now : Time) (windowId ownerId : String) (lease : Duration) (ignoreSchedule : Bool)
  | beginBooking (now : Time) (claim : { c : WindowClaim // c.watch.watchId = u })
  | commitWindow (now : Time) (claim : { c : WindowClaim // c.watch.watchId = u }) (newWatch : Watch)
      (newRuntime : WatchRuntime)
  | cancelIfActive (now : Time)
  | expireIfEligible (now : Time) (expectedRevision : Option ℕ) (force : Bool)
  | releaseClaim (claim : { c : WindowClaim // c.watch.watchId = u })
  | claimDispatch (now : Time) (marker : { m : ScheduleMarker // m.watchId = u }) (ownerId : String)
      (lease : Duration)
  | markDispatched (now : Time) (claim : { c : DispatchClaim // c.watchId = u }) (redispatchAfter : Time)
  | releaseDispatch (claim : { c : DispatchClaim // c.watchId = u })
  /-- Time passes. -/
  | elapse (ms : ℤ)
  /-- A key goes whose time to live has run out. -/
  | fire (key : RedisKey)

/-- How the history of a watch ends. -/
inductive Removal
  | delete
  | cleanupDue (now : Time) (batchSize : ℤ)

variable {u : String}

/-- The histories of one watch: it is created under an unused id, and then one call follows the
other. -/
def historyMachine (retention : Duration) (u : String) : Machine Redis (WatchCall u) where
  init db := ∃ vacant watch runtime, Redis.Vacant vacant u ∧ watch.watchId = u ∧
    db = (vacant.create watch runtime).2
  allowed db
    | .elapse ms => 0 ≤ ms
    | .fire key => (db.ttl.get? key).any (fun ms => ms ≤ 0) = true
    | _ => True
  exec
    | .claimWindow now windowId ownerId lease ignoreSchedule, db =>
      (db.claimWindow now u windowId ownerId lease ignoreSchedule).2
    | .beginBooking now claim, db => (db.beginBooking now claim).2
    | .commitWindow now claim newWatch newRuntime, db =>
      (db.commitWindow retention now claim newWatch newRuntime).2
    | .cancelIfActive now, db => (db.cancelIfActive retention now u).2
    | .expireIfEligible now expectedRevision force, db =>
      (db.expireIfEligible retention now u expectedRevision force).2
    | .releaseClaim claim, db => (db.releaseClaim claim).2
    | .claimDispatch now marker ownerId lease, db => (db.claimDispatch now marker ownerId lease).2
    | .markDispatched now claim redispatchAfter, db => (db.markDispatched now claim redispatchAfter).2
    | .releaseDispatch claim, db => (db.releaseDispatch claim).2
    | .elapse ms, db => db.elapse ms
    | .fire key, db => db.del key

/-- The step is a dispatch claim that passes its tests. -/
def WatchCall.Dispatches (db : Redis) : WatchCall u → Prop
  | .claimDispatch now marker _ _ => db.admitsDispatch (toMs now) marker = true
  | _ => False

/-- A cleanup ends the history when it consumes the entry of the watch. -/
def Removal.Consumes (u : String) (db : Redis) : Removal → Prop
  | .delete => True
  | .cleanupDue now batchSize => u ∈ db.dueBatch now batchSize

/-- The database after the end. -/
def Removal.exec (u : String) (db : Redis) : Removal → Redis
  | .delete => (db.delete u).2
  | .cleanupDue now batchSize => (db.cleanupDue now batchSize).2

/-- The end still finds the document where it needs it. -/
def Removal.Meets (u : String) (db : Redis) : Removal → Prop
  | .delete => True
  | .cleanupDue _ _ => db.watches.get? u ≠ none

/-- Nothing of the watch is left but what its dispatches stored, and every dispatch lease has a time to
live. -/
structure Redis.Cleared (db : Redis) (u : String) : Prop where
  watch : db.watches.get? u = none
  runtime : db.runtimes.get? u = none
  fence : db.fence.get? u = none
  claim : db.claims.get? u = none
  dispatches : ∀ windowHash, db.dispatches.get? (u, windowHash) ≠ none →
    db.ttl.get? (.dispatch u windowHash) ≠ none
  all : u ∉ db.all
  active : u ∉ db.active
  schedule : db.schedule.get? u = none
  terminal : db.terminal.get? u = none

/-- Nothing of the watch is left, but dispatch leases that count down their own time to live. -/
structure Redis.NothingLeft (db : Redis) (u : String) : Prop extends db.Cleared u where
  dispatchFence : db.dispatchFence.get? u = none

/-! ## What every call keeps -/

namespace Redis

/-- The keys of a watch that was created: its fence is there, the fence of its dispatches is there when a
dispatch claim has raised it, an index holds the id at most once, every dispatch lease has a time to live,
and an active watch has no entry in the terminal index. -/
structure Accounted (db : Redis) (u : String) (raised : Prop) : Prop where
  fence : (db.fence.get? u).isSome
  dispatchFence : (db.dispatchFence.get? u).isSome ↔ raised
  all : db.all.count u ≤ 1
  active : db.active.count u ≤ 1
  leases : ∀ windowHash, db.dispatches.get? (u, windowHash) ≠ none →
    db.ttl.get? (.dispatch u windowHash) ≠ none
  finished : ∀ w, db.watches.get? u = some w → w.status = .active → db.terminal.get? u = none

/-- What a dispatch claim does to the database: nothing, or it passes the tests, raises the fence of the
dispatches and, with a time to live that is positive, stores the lease. -/
theorem claimDispatch_cases (db : Redis) (now : Time) (marker : ScheduleMarker) (ownerId : String)
    (lease : Duration) :
    (db.admitsDispatch (toMs now) marker = false ∧ (db.claimDispatch now marker ownerId lease).2 = db) ∨
    (db.admitsDispatch (toMs now) marker = true ∧ ∃ generation,
      let raised := { db with dispatchFence := db.dispatchFence.insert marker.watchId generation }
      (db.claimDispatch now marker ownerId lease).2 = raised ∨
      ∃ v ms, (db.claimDispatch now marker ownerId lease).2 =
        raised.setDispatch marker.watchId (dispatchWindowHash marker.windowId) v ms) := by
  unfold admitsDispatch claimDispatch claimDispatchScript
  dsimp only
  generalize (db.dispatches.get? (marker.watchId, dispatchWindowHash marker.windowId)).elim (some false)
    (liveClaim · (toMs now)) = live
  split
  next hw => exact .inl ⟨by simp [hw], rfl⟩
  next w hw =>
    split
    next hactive => exact .inl ⟨by simp [hw, hactive], rfl⟩
    next hactive =>
      split
      next hr => exact .inl ⟨by simp [hr], rfl⟩
      next r hr =>
        split
        next hwindow => exact .inl ⟨by simp [hr, hwindow], rfl⟩
        next hwindow =>
          split
          next hscore => exact .inl ⟨by simp [show db.schedule.get? marker.watchId = none by simpa using hscore], rfl⟩
          next hscore =>
            have hscored : (db.schedule.get? marker.watchId).isSome = true :=
              Option.isSome_iff_ne_none.mpr (by simpa using hscore)
            split
            next => exact .inl ⟨by simp, rfl⟩
            next => exact .inl ⟨by simp, rfl⟩
            next =>
              refine .inr ⟨by simp [hw, hr, not_not.mp hactive, not_not.mp hwindow, hscored],
                (db.dispatchFence.get? marker.watchId).getD 0 + 1, ?_⟩
              split
              · exact .inl rfl
              · exact .inr ⟨_, _, rfl⟩

namespace Accounted

variable {db : Redis} {raised : Prop}

/-- A document may be stored that is terminal, or while the terminal index has no entry. -/
theorem setWatch (h : db.Accounted u raised) {w : Watch}
    (hw : w.status ≠ .active ∨ db.terminal.get? u = none) : (db.setWatch u w).Accounted u raised := by
  refine ⟨h.fence, h.dispatchFence, h.all, h.active, ?_, ?_⟩
  · intro windowHash hne
    simpa [Redis.setWatch, Dict.get?_erase] using h.leases windowHash hne
  · intro w' hw' hactive
    obtain rfl : w = w' := by simpa [Redis.setWatch] using hw'
    exact hw.resolve_left (not_not.mpr hactive)

theorem setRuntime (h : db.Accounted u raised) (r : WatchRuntime) :
    (db.setRuntime u r).Accounted u raised := by
  refine ⟨h.fence, h.dispatchFence, h.all, h.active, ?_, h.finished⟩
  intro windowHash hne
  simpa [Redis.setRuntime, Dict.get?_erase] using h.leases windowHash hne

theorem setClaim (h : db.Accounted u raised) (v : String) (ms : ℤ) :
    (db.setClaim u v ms).Accounted u raised := by
  refine ⟨h.fence, h.dispatchFence, h.all, h.active, ?_, h.finished⟩
  intro windowHash hne
  simpa [Redis.setClaim, Dict.get?_insert] using h.leases windowHash hne

/-- A dispatch lease is stored with a time to live. -/
theorem setDispatch (h : db.Accounted u raised) (windowHash v : String) (ms : ℤ) :
    (db.setDispatch u windowHash v ms).Accounted u raised := by
  refine ⟨h.fence, h.dispatchFence, h.all, h.active, ?_, h.finished⟩
  intro windowHash' hne
  by_cases heq : windowHash = windowHash'
  · simp [Redis.setDispatch, heq]
  · have hkey : (u, windowHash) ≠ (u, windowHash') := by simpa using heq
    have hkey' : RedisKey.dispatch u windowHash ≠ .dispatch u windowHash' := by simpa using heq
    simp only [Redis.setDispatch, Dict.get?_insert_ne _ _ hkey] at hne
    simpa [Redis.setDispatch, Dict.get?_insert_ne _ _ hkey'] using h.leases windowHash' hne

/-- A key with a time to live may go at any time. -/
theorem del (h : db.Accounted u raised) (k : RedisKey) : (db.del k).Accounted u raised := by
  cases k with
  | watch v =>
    refine ⟨h.fence, h.dispatchFence, h.all, h.active, ?_, ?_⟩
    · intro windowHash hne
      simpa [Redis.del, Dict.get?_erase] using h.leases windowHash hne
    · intro w hw hactive
      refine h.finished w ?_ hactive
      simp only [Redis.del, Dict.get?_erase] at hw
      split_ifs at hw
      exact hw
  | runtime v =>
    refine ⟨h.fence, h.dispatchFence, h.all, h.active, ?_, h.finished⟩
    intro windowHash hne
    simpa [Redis.del, Dict.get?_erase] using h.leases windowHash hne
  | claim v =>
    refine ⟨h.fence, h.dispatchFence, h.all, h.active, ?_, h.finished⟩
    intro windowHash hne
    simpa [Redis.del, Dict.get?_erase] using h.leases windowHash hne
  | dispatch v windowHash =>
    refine ⟨h.fence, h.dispatchFence, h.all, h.active, ?_, h.finished⟩
    intro windowHash' hne
    simp only [Redis.del, Dict.get?_erase] at hne ⊢
    by_cases heq : v = u ∧ windowHash = windowHash'
    · simp [heq] at hne
    · have hkey : (v, windowHash) ≠ (u, windowHash') := by simpa using heq
      have hkey' : RedisKey.dispatch v windowHash ≠ .dispatch u windowHash' := by simpa using heq
      rw [if_neg hkey] at hne
      rw [if_neg hkey']
      exact h.leases windowHash' hne

theorem pexpire (h : db.Accounted u raised) (k : RedisKey) (ms : ℤ) :
    (db.pexpire k ms).Accounted u raised := by
  unfold Redis.pexpire
  split_ifs
  · exact h
  · exact h.del k
  · refine ⟨h.fence, h.dispatchFence, h.all, h.active, ?_, h.finished⟩
    intro windowHash hne
    have hlease := h.leases windowHash hne
    simp only [Dict.get?_insert]
    split_ifs
    · simp
    · exact hlease

theorem unschedule (h : db.Accounted u raised) : (db.unschedule u).Accounted u raised :=
  ⟨h.fence, h.dispatchFence, h.all, (List.erase_sublist.count_le u).trans h.active, h.leases, h.finished⟩

/-- An entry of the terminal index is for a watch that is not active. -/
theorem setTerminal (h : db.Accounted u raised) (ms : ℤ) (events : List String)
    (hw : ∀ w, db.watches.get? u = some w → w.status ≠ .active) :
    Accounted { db with terminal := db.terminal.insert u ms, events := events } u raised :=
  ⟨h.fence, h.dispatchFence, h.all, h.active, h.leases, fun w hget hactive => absurd hactive (hw w hget)⟩

theorem setSchedule (h : db.Accounted u raised) (schedule : Dict String ℤ) :
    Accounted { db with schedule := schedule } u raised :=
  ⟨h.fence, h.dispatchFence, h.all, h.active, h.leases, h.finished⟩

theorem setFence (h : db.Accounted u raised) (token : ℕ) :
    Accounted { db with fence := db.fence.insert u token } u raised :=
  ⟨by simp, h.dispatchFence, h.all, h.active, h.leases, h.finished⟩

theorem setDispatchFence (h : db.Accounted u raised) (generation : ℕ) :
    Accounted { db with dispatchFence := db.dispatchFence.insert u generation } u True :=
  ⟨h.fence, by simp, h.all, h.active, h.leases, h.finished⟩

theorem elapse (h : db.Accounted u raised) (ms : ℤ) : (db.elapse ms).Accounted u raised := by
  refine ⟨h.fence, h.dispatchFence, h.all, h.active, ?_, h.finished⟩
  intro windowHash hne
  simpa [Redis.elapse, Dict.get?_map] using h.leases windowHash hne

/-- A watch is accounted for from its creation on. -/
theorem create {vacant : Redis} (hvacant : vacant.Vacant u) {watch : Watch} (hid : watch.watchId = u)
    (runtime : WatchRuntime) : (vacant.create watch runtime).2.Accounted u False := by
  subst hid
  have hall : vacant.all.count watch.watchId = 0 := List.count_eq_zero.mpr hvacant.all
  have hactive : vacant.active.count watch.watchId = 0 := List.count_eq_zero.mpr hvacant.active
  unfold Redis.create createWithSchedule
  simp only [hvacant.watch]
  refine ⟨by simp, ?_, ?_, ?_, ?_, ?_⟩
  · simp [Redis.setWatch, Redis.setRuntime, hvacant.dispatchFence]
  · simp [Redis.setWatch, Redis.setRuntime, hvacant.all, List.insert_of_not_mem, hall]
  · simp [Redis.setWatch, Redis.setRuntime, hvacant.active, List.insert_of_not_mem, hactive]
  · intro windowHash hne
    exact absurd (hvacant.dispatches windowHash) hne
  · exact fun _ _ _ => hvacant.terminal

/-- The writes that finish a watch. -/
theorem finish (h : db.Accounted u raised) {w : Watch} (hw : w.status ≠ .active)
    (r : Option WatchRuntime) (ms ttl : ℤ) (eventId : Option String) :
    (db.finish u w r ms ttl eventId).Accounted u raised := by
  have hset := h.setWatch (.inl hw)
  unfold Redis.finish
  dsimp only
  refine .pexpire (.pexpire (.setTerminal (.unschedule (.del ?_ _)) ms _ ?_) _ _) _ _
  · split
    · exact hset
    · exact hset.setRuntime _
    · exact hset.del _
  · -- the document is the terminal one, whatever happened to the sidecar
    intro w' hw'
    have hget : some w = some w' := by
      rw [← hw']
      split <;> simp [Redis.unschedule, Redis.del, Redis.setRuntime, Redis.setWatch]
    rw [← Option.some.inj hget]
    exact hw

theorem claimWindow (h : db.Accounted u raised) (now : Time) (windowId ownerId : String)
    (lease : Duration) (ignoreSchedule : Bool) :
    (db.claimWindow now u windowId ownerId lease ignoreSchedule).2.Accounted u raised := by
  unfold Redis.claimWindow claimScript
  dsimp only
  repeat' split
  all_goals first
    | exact h
    | exact h.setFence _
    | exact (h.setFence _).setClaim _ _

theorem beginBooking (h : db.Accounted u raised) (now : Time) (claim : WindowClaim)
    (hid : claim.watch.watchId = u) : (db.beginBooking now claim).2.Accounted u raised := by
  subst hid
  unfold Redis.beginBooking beginScript
  dsimp only
  repeat' split
  all_goals first
    | exact h
    | exact h.setRuntime _

theorem releaseClaim (h : db.Accounted u raised) (claim : WindowClaim) :
    (db.releaseClaim claim).2.Accounted u raised := by
  unfold Redis.releaseClaim releaseScript
  repeat' split
  all_goals first
    | exact h
    | exact h.del (.claim _)

/-- A commit replaces an active document, by a terminal one where it enters the terminal index. -/
theorem commitWindow (h : db.Accounted u raised) (retention : Duration) (now : Time)
    (claim : WindowClaim) (hid : claim.watch.watchId = u) (newWatch : Watch) (newRuntime : WatchRuntime) :
    (db.commitWindow retention now claim newWatch newRuntime).2.Accounted u raised := by
  subst hid
  unfold Redis.commitWindow commitScript
  dsimp only
  split
  next => exact h
  next w hw =>
    split
    next => exact h
    next hactive =>
      have hout := h.finished w hw (not_not.mp hactive)
      split
      next => exact h
      next =>
        split
        next => exact h
        next =>
          split
          next => exact h
          next =>
            split
            next => exact h
            next => exact h
            next =>
              have hstored := ((h.setWatch (w := newWatch) (.inr hout)).setRuntime
                (storedRuntime retention now claim newWatch newRuntime)).del (.claim claim.watch.watchId)
              split
              next hterminal =>
                have hfinal : newWatch.status.isTerminal = true := by
                  by_contra hno
                  simp [hno] at hterminal
                refine .pexpire (.pexpire (.setTerminal hstored.unschedule _ _ ?_) _ _) _ _
                intro w' hw'
                have hget : some newWatch = some w' := by
                  rw [← hw']
                  simp [Redis.unschedule, Redis.del, Redis.setRuntime, Redis.setWatch]
                rw [← Option.some.inj hget]
                simpa using hfinal
              next => exact hstored.setSchedule _

/-- A cancellation changes nothing, marks the sidecar, or finishes the watch. -/
theorem cancelScript (h : db.Accounted u raised) (cas : String) (retention : Duration) (now : Time)
    (watch : Watch) (runtime : Option WatchRuntime) :
    (db.cancelScript u cas (cancelMode retention now watch runtime)).2.Accounted u raised := by
  unfold Redis.cancelScript cancelMode
  split
  next => exact h
  next =>
    split
    next => exact h
    next =>
      split
      next => exact h
      next =>
        split
        next hmode =>
          split
          · exact h.setRuntime _
          · exact h
        next hmode =>
          split at hmode
          · contradiction
          · obtain ⟨rfl, -⟩ := CancelMode.cancel.inj hmode
            exact h.finish (by simp [Watch.ended]) _ _ _ _

theorem cancelIfActive (h : db.Accounted u raised) (retention : Duration) (now : Time) :
    (db.cancelIfActive retention now u).2.Accounted u raised := by
  have hloop : ∀ attempts (db : Redis), db.Accounted u raised →
      (cancelLoop retention now u attempts db).2.Accounted u raised := by
    intro attempts
    induction attempts with
    | zero => exact fun _ h => h
    | succ attempts ih =>
      intro db h
      unfold cancelLoop
      split
      next => exact h
      next watch hget =>
        split
        next => exact h
        next =>
          have hrun := h.cancelScript (casRevision (db.getRuntime u)) retention now watch (db.getRuntime u)
          dsimp only
          split
          · exact ih _ hrun
          · exact hrun
  exact hloop _ db h

theorem expireIfEligible (h : db.Accounted u raised) (retention : Duration) (now : Time)
    (expectedRevision : Option ℕ) (force : Bool) :
    (db.expireIfEligible retention now u expectedRevision force).2.Accounted u raised := by
  unfold Redis.expireIfEligible
  split
  next => exact h
  next watch =>
    split
    next => exact h
    next =>
      dsimp only
      split
      next => exact h
      next request hrequest =>
        have hended : request.newWatch.status ≠ .active := by
          unfold expireRequest at hrequest
          split_ifs at hrequest
          obtain rfl := Sum.inr.inj hrequest
          simp [Watch.ended]
        unfold expireScript
        repeat' split
        all_goals first
          | exact h
          | exact h.finish hended _ _ _ _

/-- A dispatch claim raises the fence of the dispatches exactly when it passes the tests. -/
theorem claimDispatch (h : db.Accounted u raised) (now : Time) (marker : ScheduleMarker)
    (hid : marker.watchId = u) (ownerId : String) (lease : Duration) :
    (db.claimDispatch now marker ownerId lease).2.Accounted u
      (raised ∨ db.admitsDispatch (toMs now) marker = true) := by
  subst hid
  rcases claimDispatch_cases db now marker ownerId lease with ⟨hno, hdb⟩ | ⟨hyes, generation, hdb⟩
  · simpa [hno, hdb] using h
  · simp only [hyes, or_true]
    rcases hdb with hdb | ⟨v, ms, hdb⟩ <;> rw [hdb]
    · exact h.setDispatchFence _
    · exact (h.setDispatchFence _).setDispatch _ _ _

theorem markDispatched (h : db.Accounted u raised) (now : Time) (claim : DispatchClaim)
    (hid : claim.watchId = u) (redispatchAfter : Time) :
    (db.markDispatched now claim redispatchAfter).2.Accounted u raised := by
  subst hid
  unfold Redis.markDispatched markDispatchedScript
  repeat' split
  all_goals first
    | exact h
    | exact h.setDispatch _ _ _

theorem releaseDispatch (h : db.Accounted u raised) (claim : DispatchClaim) :
    (db.releaseDispatch claim).2.Accounted u raised := by
  unfold Redis.releaseDispatch releaseDispatchScript
  repeat' split
  all_goals first
    | exact h
    | exact h.del (.dispatch _ _)

/-- A step that is no such dispatch claim. -/
theorem of_quiet {dispatches : Prop} (h : db.Accounted u raised) (hquiet : ¬ dispatches) :
    db.Accounted u (raised ∨ dispatches) := by
  rwa [or_iff_left hquiet]

/-- One step of a history. -/
theorem step (h : db.Accounted u raised) (retention : Duration) (call : WatchCall u) :
    ((historyMachine retention u).exec call db).Accounted u (raised ∨ call.Dispatches db) := by
  cases call with
  | claimDispatch now marker ownerId lease => exact h.claimDispatch now marker marker.2 ownerId lease
  | claimWindow now windowId ownerId lease ignoreSchedule =>
    exact (h.claimWindow now windowId ownerId lease ignoreSchedule).of_quiet id
  | beginBooking now claim => exact (h.beginBooking now claim claim.2).of_quiet id
  | commitWindow now claim newWatch newRuntime =>
    exact (h.commitWindow retention now claim claim.2 newWatch newRuntime).of_quiet id
  | cancelIfActive now => exact (h.cancelIfActive retention now).of_quiet id
  | expireIfEligible now expectedRevision force =>
    exact (h.expireIfEligible retention now expectedRevision force).of_quiet id
  | releaseClaim claim => exact (h.releaseClaim claim).of_quiet id
  | markDispatched now claim redispatchAfter =>
    exact (h.markDispatched now claim claim.2 redispatchAfter).of_quiet id
  | releaseDispatch claim => exact (h.releaseDispatch claim).of_quiet id
  | elapse ms => exact (h.elapse ms).of_quiet id
  | fire key => exact (h.del key).of_quiet id

/-- A whole history: the fence of the dispatches was raised at its beginning, or some step of it was a
dispatch claim that passed its tests. -/
theorem run (h : db.Accounted u raised) (retention : Duration) (calls : List (WatchCall u)) :
    ((historyMachine retention u).final db calls).Accounted u
      (raised ∨ ¬ (historyMachine retention u).EachStep (fun db call => ¬ call.Dispatches db) db calls) := by
  induction calls generalizing db raised with
  | nil => simpa [Machine.EachStep, Machine.final] using h
  | cons call calls ih =>
    have hrest := ih (h.step retention call)
    simpa [Machine.EachStep, Machine.final, or_assoc, not_and_or, imp_iff_or_not, or_comm,
      or_left_comm] using hrest

end Accounted

/-! ## What the end leaves -/

/-- A `delete` clears the watch. -/
theorem Accounted.delete {db : Redis} {raised : Prop} (h : db.Accounted u raised) :
    (db.delete u).2.Cleared u := by
  have hall : (db.all.erase u).count u = 0 := by
    rw [List.count_erase_self]
    have := h.all
    omega
  have hactive : (db.active.erase u).count u = 0 := by
    rw [List.count_erase_self]
    have := h.active
    omega
  refine ⟨by simp [Redis.delete, Redis.del], by simp [Redis.delete, Redis.del],
    by simp [Redis.delete, Redis.del], by simp [Redis.delete, Redis.del], ?_,
    List.count_eq_zero.mp hall, List.count_eq_zero.mp hactive, by simp [Redis.delete, Redis.del],
    by simp [Redis.delete, Redis.del]⟩
  intro windowHash hne
  simpa [Redis.delete, Redis.del, Dict.get?_erase] using h.leases windowHash hne

/-- The database that a cleanup leaves. -/
theorem cleanupDue_snd (db : Redis) (now : Time) (batchSize : ℤ) :
    (db.cleanupDue now batchSize).2 = (db.dueBatch now batchSize).foldl cleanupOne db := by
  have hfold : ∀ (batch : List String) (done : ℕ × Redis),
      (batch.foldl (fun done watchId =>
        (if done.2.isFinished watchId then done.1 + 1 else done.1, done.2.cleanupOne watchId)) done).2 =
      batch.foldl cleanupOne done.2 := by
    intro batch
    induction batch with
    | nil => exact fun done => rfl
    | cons watchId batch ih => exact fun done => ih _
  exact hfold _ (0, db)

/-- Where the document is there and terminal, an iteration of the cleanup is a `delete`. -/
theorem cleanupOne_finished {db : Redis} (h : db.isFinished u = true) :
    db.cleanupOne u = (db.delete u).2 := by
  simp [cleanupOne, h, Redis.delete, Redis.del]

/-- An iteration of the cleanup for another watch. -/
theorem Accounted.cleanupOne_ne {db : Redis} {raised : Prop} (h : db.Accounted u raised) {v : String}
    (hv : v ≠ u) :
    (db.cleanupOne v).Accounted u raised ∧ (db.cleanupOne v).watches.get? u = db.watches.get? u ∧
      (db.cleanupOne v).terminal.get? u = db.terminal.get? u := by
  unfold cleanupOne
  dsimp only
  split_ifs
  · refine ⟨⟨?_, h.dispatchFence, ?_, ?_, ?_, ?_⟩, ?_, ?_⟩
    · simpa [Redis.del, Dict.get?_erase_ne, hv] using h.fence
    · exact (List.erase_sublist.count_le u).trans h.all
    · exact (List.erase_sublist.count_le u).trans h.active
    · intro windowHash hne
      simpa [Redis.del, Dict.get?_erase] using h.leases windowHash hne
    · simpa [Redis.del, Dict.get?_erase_ne, hv] using h.finished
    · simp [Redis.del, Dict.get?_erase_ne, hv]
    · simp [Redis.del, Dict.get?_erase_ne, hv]
  · refine ⟨⟨h.fence, h.dispatchFence, h.all, h.active, h.leases, ?_⟩, rfl, ?_⟩
    · simpa [Dict.get?_erase_ne, hv] using h.finished
    · simp [Dict.get?_erase_ne, hv]

/-- What was cleared stays so. -/
theorem Cleared.cleanupOne {db : Redis} (h : db.Cleared u) (v : String) : (db.cleanupOne v).Cleared u := by
  unfold Redis.cleanupOne
  dsimp only
  split_ifs
  · refine ⟨?_, ?_, ?_, ?_, ?_, ?_, ?_, ?_, ?_⟩
    · simp [Redis.del, Dict.get?_erase, h.watch]
    · simp [Redis.del, Dict.get?_erase, h.runtime]
    · simp [Redis.del, Dict.get?_erase, h.fence]
    · simp [Redis.del, Dict.get?_erase, h.claim]
    · intro windowHash hne
      simpa [Redis.del, Dict.get?_erase] using h.dispatches windowHash hne
    · exact fun hmem => h.all (List.mem_of_mem_erase hmem)
    · exact fun hmem => h.active (List.mem_of_mem_erase hmem)
    · simp [Redis.del, Dict.get?_erase, h.schedule]
    · simp [Redis.del, Dict.get?_erase, h.terminal]
  · exact ⟨h.watch, h.runtime, h.fence, h.claim, h.dispatches, h.all, h.active, h.schedule,
      by simp [Dict.get?_erase, h.terminal]⟩

/-- A cleanup that takes up a watch whose document is there clears it. -/
theorem Accounted.cleanupDue {raised : Prop} {batch : List String} {db : Redis} (h : db.Accounted u raised)
    (hdoc : db.watches.get? u ≠ none) (hterminal : db.terminal.get? u ≠ none) (hmem : u ∈ batch) :
    (batch.foldl cleanupOne db).Cleared u := by
  induction batch generalizing db with
  | nil => contradiction
  | cons v batch ih =>
    by_cases hv : v = u
    · subst hv
      obtain ⟨w, hw⟩ := Option.ne_none_iff_exists'.mp hdoc
      have hfinished : db.isFinished v = true := by
        have hended : w.status ≠ .active := fun hactive => hterminal (h.finished w hw hactive)
        simpa [isFinished, hw] using hended
      have hcleared : (db.cleanupOne v).Cleared v := by
        rw [cleanupOne_finished hfinished]
        exact h.delete
      exact List.foldlRecOn batch cleanupOne (motive := fun db : Redis => db.Cleared v) hcleared
        fun db' hdb' x _ => hdb'.cleanupOne x
    · obtain ⟨hrest, hwatches, hindex⟩ := h.cleanupOne_ne hv
      refine ih hrest (by rwa [hwatches]) (by rwa [hindex]) ?_
      exact (List.mem_cons.mp hmem).resolve_left (Ne.symm hv)

/-- A cleanup deletes the fence of a watch only along with its document. -/
theorem cleanupDue_missing {batch : List String} {db : Redis} (hdoc : db.watches.get? u = none) :
    (batch.foldl cleanupOne db).fence.get? u = db.fence.get? u := by
  induction batch generalizing db with
  | nil => rfl
  | cons v batch ih =>
    have hone : (db.cleanupOne v).fence.get? u = db.fence.get? u ∧
        (db.cleanupOne v).watches.get? u = none := by
      unfold cleanupOne
      dsimp only
      split_ifs with hfinished
      · -- the document of `v` is there, so it is another watch
        have hv : v ≠ u := by
          rintro rfl
          simp [isFinished, hdoc] at hfinished
        simp [Redis.del, Dict.get?_erase_ne, hv, hdoc]
      · exact ⟨rfl, hdoc⟩
    rw [List.foldl_cons, ih hone.2, hone.1]

/-- No cleanup touches the fence of the dispatches. -/
theorem cleanupDue_dispatchFence (batch : List String) (db : Redis) :
    (batch.foldl cleanupOne db).dispatchFence = db.dispatchFence := by
  refine List.foldlRecOn batch cleanupOne (motive := fun db' : Redis => db'.dispatchFence = db.dispatchFence)
    rfl fun db' hdb' v _ => ?_
  rw [← hdb']
  unfold cleanupOne
  dsimp only
  split_ifs <;> rfl

/-- An end clears the watch exactly when it meets the document that it needs. -/
theorem Accounted.cleared_iff {db : Redis} {raised : Prop} (h : db.Accounted u raised) (removal : Removal)
    (hend : removal.Consumes u db) : (removal.exec u db).Cleared u ↔ removal.Meets u db := by
  cases removal with
  | delete => exact ⟨fun _ => trivial, fun _ => h.delete⟩
  | cleanupDue now batchSize =>
    have hmem : u ∈ db.dueBatch now batchSize := hend
    have hterminal : db.terminal.get? u ≠ none := by
      have hdue : u ∈ db.terminal.rangeByScore (toMs now) := by
        unfold dueBatch at hmem
        dsimp only at hmem
        split_ifs at hmem
        · exact hmem
        · exact List.mem_of_mem_take hmem
      obtain ⟨ms, hms, -⟩ := (Dict.mem_rangeByScore _).mp hdue
      simp [hms]
    show (db.cleanupDue now batchSize).2.Cleared u ↔ db.watches.get? u ≠ none
    rw [cleanupDue_snd]
    refine ⟨fun hcleared hdoc => ?_, fun hdoc => h.cleanupDue hdoc hterminal hmem⟩
    have hfence := h.fence
    rw [← cleanupDue_missing hdoc, hcleared.fence] at hfence
    contradiction

/-- No end touches the fence of the dispatches. -/
theorem removal_dispatchFence (db : Redis) (removal : Removal) :
    (removal.exec u db).dispatchFence = db.dispatchFence := by
  cases removal with
  | delete => rfl
  | cleanupDue now batchSize =>
    show (db.cleanupDue now batchSize).2.dispatchFence = _
    rw [cleanupDue_snd, cleanupDue_dispatchFence]

/-- The end of the history of a watch leaves nothing behind if and only if no dispatch claim of it passed
its tests, and the end, when it is a cleanup, still finds the document. -/
theorem nothingLeft_iff (retention : Duration) {created : Redis}
    (hcreated : (historyMachine retention u).init created) (calls : List (WatchCall u)) {removal : Removal}
    (hend : removal.Consumes u ((historyMachine retention u).final created calls)) :
    (removal.exec u ((historyMachine retention u).final created calls)).NothingLeft u ↔
      (historyMachine retention u).EachStep (fun db call => ¬ call.Dispatches db) created calls ∧
        removal.Meets u ((historyMachine retention u).final created calls) := by
  obtain ⟨vacant, watch, runtime, hvacant, hid, rfl⟩ := hcreated
  have hlast := (Accounted.create hvacant hid runtime).run retention calls
  have hcleared := hlast.cleared_iff removal hend
  have hraised := hlast.dispatchFence
  rw [false_or] at hraised
  constructor
  · intro h
    refine ⟨?_, hcleared.mp h.toCleared⟩
    have hfence := h.dispatchFence
    rw [removal_dispatchFence] at hfence
    by_contra hdispatched
    rw [← hraised, hfence] at hdispatched
    contradiction
  · rintro ⟨hquiet, hmeets⟩
    refine ⟨hcleared.mpr hmeets, ?_⟩
    rw [removal_dispatchFence]
    exact Option.not_isSome_iff_eq_none.mp fun hsome => hraised.mp hsome hquiet

/-- No id is used in an empty database. -/
theorem empty_vacant (u : String) : Redis.empty.Vacant u :=
  ⟨rfl, rfl, rfl, rfl, rfl, fun _ => rfl, List.not_mem_nil, List.not_mem_nil, rfl, rfl⟩

/-- The database after the creation of the sample watch. -/
def sampleCreated : Redis := (Redis.empty.create RedisSys.sampleWatch RedisSys.sampleRuntime).2

theorem sampleCreated_init (retention : Duration) : (historyMachine retention "w").init sampleCreated :=
  ⟨.empty, RedisSys.sampleWatch, RedisSys.sampleRuntime, empty_vacant "w", rfl, rfl⟩

/-- The history of a watch that is claimed and then cancelled. -/
def claimedHistory : List (WatchCall "w") := [.claimWindow 0 "w:0" "a" 60000000 false, .cancelIfActive 0]

/-- A cleanup after a minute of retention leaves nothing of it. -/
theorem nothingLeft_iff_claimed :
    (Removal.exec "w" ((historyMachine 60000000 "w").final sampleCreated claimedHistory)
      (.cleanupDue 60000000 100)).NothingLeft "w" := by
  have hend : Removal.Consumes "w" ((historyMachine 60000000 "w").final sampleCreated claimedHistory)
      (.cleanupDue 60000000 100) := by
    show "w" ∈ ((historyMachine 60000000 "w").final sampleCreated claimedHistory).dueBatch 60000000 100
    decide +kernel
  refine (nothingLeft_iff 60000000 (sampleCreated_init 60000000) claimedHistory hend).mpr
    ⟨⟨id, id, trivial⟩, ?_⟩
  show ((historyMachine 60000000 "w").final sampleCreated claimedHistory).watches.get? "w" ≠ none
  decide +kernel

/-- The history of a watch with one dispatch claim. -/
def dispatchedHistory : List (WatchCall "w") :=
  [.claimDispatch 0 ⟨⟨"w", "w:0", 0⟩, rfl⟩ "a" 30000000, .cancelIfActive 0]

/-- After a dispatch claim the fence of the dispatches stays for good: neither end deletes it. -/
theorem dispatch_leaks :
    ¬ ∀ (retention : Duration) (u : String) (created : Redis) (calls : List (WatchCall u))
      (removal : Removal), (historyMachine retention u).init created →
      (historyMachine retention u).Runs created calls →
      removal.Consumes u ((historyMachine retention u).final created calls) →
      (removal.exec u ((historyMachine retention u).final created calls)).NothingLeft u := by
  intro h
  have hruns : (historyMachine 60000000 "w").Runs sampleCreated dispatchedHistory :=
    ⟨trivial, trivial, trivial⟩
  have hend : "w" ∈ ((historyMachine 60000000 "w").final sampleCreated dispatchedHistory).dueBatch
      60000000 100 := by
    decide +kernel
  have hleft := (h 60000000 "w" sampleCreated dispatchedHistory (.cleanupDue 60000000 100)
    (sampleCreated_init 60000000) hruns hend).dispatchFence
  have hfence : (Removal.exec "w" ((historyMachine 60000000 "w").final sampleCreated dispatchedHistory)
      (.cleanupDue 60000000 100)).dispatchFence.get? "w" = some 1 := by
    decide +kernel
  rw [hfence] at hleft
  contradiction

end Redis

end Dibs
