import Dibs.Recovery.Database

/-!
# One watch in the database

`Redis.view` is what the database holds of one watch as far as its lifecycle goes: the document and the
sidecar with their times to live, the fence, and the score of its schedule member. Every method touches
the view of one watch at most, and one lemma for each method says how. Unlike `Redis.record`, the view
also tells whether a watch has its schedule marker, which is what recovery decides by.
-/

namespace Dibs

open Function (update)

/-- What the database holds of one watch. -/
structure WatchView where
  watch : Option Watch
  runtime : Option WatchRuntime
  fence : Option ℕ
  score : Option ℤ
  watchTtl : Option ℤ
  runtimeTtl : Option ℤ

namespace Redis

/-- The view of a watch. -/
def view (db : Redis) (u : String) : WatchView where
  watch := db.watches.get? u
  runtime := db.runtimes.get? u
  fence := db.fence.get? u
  score := db.schedule.get? u
  watchTtl := db.ttl.get? (.watch u)
  runtimeTtl := db.ttl.get? (.runtime u)

/-- The views of `db'` are those of `db` with one replaced. -/
theorem view_eq_update {db db' : Redis} {u : String} {x : WatchView} (hu : db'.view u = x)
    (hne : ∀ v, u ≠ v → db'.view v = db.view v) : db'.view = update db.view u x := by
  funext v
  by_cases h : v = u
  · rw [h, hu, Function.update_self]
  · rw [hne v (Ne.symm h), Function.update_of_ne h]

/-! ## The single writes -/

theorem view_setWatch (db : Redis) (u : String) (w : Watch) :
    (db.setWatch u w).view = update db.view u { db.view u with watch := some w, watchTtl := none } := by
  apply view_eq_update
  · simp [view, setWatch, Dict.get?_erase]
  · intro v hv
    simp [view, setWatch, Dict.get?_insert_ne, Dict.get?_erase, hv]

theorem view_setRuntime (db : Redis) (u : String) (r : WatchRuntime) :
    (db.setRuntime u r).view =
      update db.view u { db.view u with runtime := some r, runtimeTtl := none } := by
  apply view_eq_update
  · simp [view, setRuntime, Dict.get?_erase]
  · intro v hv
    simp [view, setRuntime, Dict.get?_insert_ne, Dict.get?_erase, hv]

theorem view_setClaim (db : Redis) (u v : String) (ms : ℤ) : (db.setClaim u v ms).view = db.view := by
  funext x
  simp [view, setClaim, Dict.get?_insert]

theorem view_delWatch (db : Redis) (u : String) :
    (db.del (.watch u)).view = update db.view u { db.view u with watch := none, watchTtl := none } := by
  apply view_eq_update
  · simp [view, del, Dict.get?_erase]
  · intro v hv
    simp [view, del, Dict.get?_erase, hv]

theorem view_delRuntime (db : Redis) (u : String) :
    (db.del (.runtime u)).view =
      update db.view u { db.view u with runtime := none, runtimeTtl := none } := by
  apply view_eq_update
  · simp [view, del, Dict.get?_erase]
  · intro v hv
    simp [view, del, Dict.get?_erase, hv]

theorem view_delClaim (db : Redis) (u : String) : (db.del (.claim u)).view = db.view := by
  funext v
  simp [view, del, Dict.get?_erase]

theorem view_delDispatch (db : Redis) (u windowHash : String) :
    (db.del (.dispatch u windowHash)).view = db.view := by
  funext v
  simp [view, del, Dict.get?_erase]

theorem view_setFence (db : Redis) (u : String) (token : ℕ) :
    view { db with fence := db.fence.insert u token } =
      update db.view u { db.view u with fence := some token } := by
  apply view_eq_update
  · simp [view]
  · intro v hv
    simp [view, Dict.get?_insert_ne, hv]

theorem view_unschedule (db : Redis) (u : String) :
    (db.unschedule u).view = update db.view u { db.view u with score := none } := by
  apply view_eq_update
  · simp [view, unschedule]
  · intro v hv
    simp [view, unschedule, Dict.get?_erase_ne, hv]

/-- A positive time to live deletes nothing. -/
theorem view_pexpire_watch (db : Redis) (u : String) {ms : ℤ} (h : 0 < ms) :
    ∃ ttl, (db.pexpire (.watch u) ms).view = update db.view u { db.view u with watchTtl := ttl } := by
  unfold pexpire
  rw [if_neg (not_le.mpr h)]
  split
  · exact ⟨(db.view u).watchTtl, (Function.update_eq_self u db.view).symm⟩
  · refine ⟨some ms, view_eq_update ?_ fun v hv => ?_⟩
    · simp [view, Dict.get?_insert]
    · simp [view, Dict.get?_insert, hv]

theorem view_pexpire_runtime (db : Redis) (u : String) {ms : ℤ} (h : 0 < ms) :
    ∃ ttl, (db.pexpire (.runtime u) ms).view = update db.view u { db.view u with runtimeTtl := ttl } := by
  unfold pexpire
  rw [if_neg (not_le.mpr h)]
  split
  · exact ⟨(db.view u).runtimeTtl, (Function.update_eq_self u db.view).symm⟩
  · refine ⟨some ms, view_eq_update ?_ fun v hv => ?_⟩
    · simp [view, Dict.get?_insert]
    · simp [view, Dict.get?_insert, hv]

/-- Finishing a watch stores the terminal document, and the new sidecar in place of a present one. -/
theorem view_finish (db : Redis) (u : String) (w : Watch) (r : Option WatchRuntime) (ms : ℤ) {ttl : ℤ}
    (h : 0 < ttl) (eventId : Option String) :
    ∃ watchTtl runtimeTtl, (db.finish u w r ms ttl eventId).view = update db.view u
      ⟨some w, (db.view u).runtime.bind fun _ => r, (db.view u).fence, none, watchTtl, runtimeTtl⟩ := by
  have hget : (db.setWatch u w).runtimes.get? u = (db.view u).runtime := rfl
  unfold finish
  dsimp only
  obtain ⟨runtimeTtl, hruntime⟩ := view_pexpire_runtime _ u h
  obtain ⟨watchTtl, hwatch⟩ := view_pexpire_watch _ u h
  rw [hruntime, hwatch]
  refine ⟨watchTtl, runtimeTtl, ?_⟩
  -- Neither the entry of the terminal index nor the event is in view.
  have hindex : ∀ (db : Redis) terminal events,
      view { db with terminal := terminal, events := events } = db.view := fun _ _ _ => rfl
  rw [hindex, view_unschedule, view_delClaim, hget]
  cases hr : (db.view u).runtime with
  | none =>
    simp [view_setWatch, hr]
  | some stored =>
    cases r with
    | none => simp [view_setWatch, view_delRuntime]
    | some r => simp [view_setWatch, view_setRuntime]

/-! ## What each method does -/

/-- `create_with_schedule` stores a record under an unused id. -/
theorem view_create (db : Redis) (w : Watch) (r : WatchRuntime) :
    ((db.view w.watchId).watch = none ∧ ∃ score, (db.create w r).2.view =
      update db.view w.watchId ⟨some w, some r, some 0, score, none, none⟩) ∨
    (db.create w r).2 = db := by
  unfold create createWithSchedule
  cases h : db.watches.get? w.watchId with
  | some stored => exact .inr rfl
  | none =>
    refine .inl ⟨h, ?_⟩
    cases scheduledMs r with
    | none =>
      refine ⟨(db.view w.watchId).score, view_eq_update ?_ fun v hv => ?_⟩
      · simp [view, setWatch, setRuntime, Dict.get?_erase]
      · simp [view, setWatch, setRuntime, Dict.get?_insert_ne, Dict.get?_erase, hv]
    | some ms =>
      refine ⟨some ms, view_eq_update ?_ fun v hv => ?_⟩
      · simp [view, setWatch, setRuntime, Dict.get?_erase]
      · simp [view, setWatch, setRuntime, Dict.get?_insert_ne, Dict.get?_erase, hv]

/-- `CLAIM_WINDOW` raises the fence of an active watch, and answers the record that is stored. -/
theorem view_claimScript (db : Redis) (u windowId ownerId : String) (leaseMs nowMs : ℤ)
    (ignoreSchedule : Bool) :
    let out := db.claimScript u windowId ownerId leaseMs nowMs ignoreSchedule
    (∀ w r token expires, out.1 = some (.owned w r token expires) →
      (db.view u).watch = some w ∧ w.status = .active ∧ (db.view u).runtime = some r) ∧
      (out.2.view = db.view ∨
        (∃ w, (db.view u).watch = some w ∧ w.status = .active) ∧
          out.2.view = update db.view u { db.view u with fence := some ((db.view u).fence.getD 0 + 1) }) := by
  unfold claimScript
  dsimp only
  split
  next => exact ⟨by simp, .inl rfl⟩
  next w hw =>
    split
    next => exact ⟨by simp, .inl rfl⟩
    next hactive =>
      split
      next => exact ⟨by simp, .inl rfl⟩
      next r hr =>
        split
        next => exact ⟨by simp, .inl rfl⟩
        next =>
          split
          next => exact ⟨by simp, .inl rfl⟩
          next =>
            split
            next => exact ⟨by simp, .inl rfl⟩
            next => exact ⟨by simp, .inl rfl⟩
            next =>
              have hlive : ∃ w, (db.view u).watch = some w ∧ w.status = .active :=
                ⟨w, hw, not_not.mp hactive⟩
              split
              next => exact ⟨by simp, .inr ⟨hlive, view_setFence db u _⟩⟩
              next =>
                refine ⟨fun w' r' token expires h => ?_, .inr ⟨hlive, ?_⟩⟩
                · obtain ⟨rfl, rfl, -, -⟩ := ClaimReply.owned.inj (Option.some.inj h)
                  exact ⟨hw, not_not.mp hactive, hr⟩
                · rw [view_setClaim]
                  exact view_setFence db u _

/-- `claim_window` hands out the record that is stored. -/
theorem claimWindow_owned {db : Redis} {now : Time} {u windowId ownerId : String} {lease : Duration}
    {ignoreSchedule : Bool} {c : WindowClaim}
    (h : (db.claimWindow now u windowId ownerId lease ignoreSchedule).1 = some (.owned c)) :
    (db.view u).watch = some c.watch ∧ c.watch.status = .active ∧ (db.view u).runtime = some c.runtime := by
  obtain ⟨howned, -⟩ := db.view_claimScript u windowId ownerId (leaseMs lease) (toMs now) ignoreSchedule
  unfold claimWindow at h
  dsimp only at h
  split at h
  all_goals try simp only [reduceCtorEq, Option.some.injEq] at h
  next w r token expires hout =>
    obtain ⟨_, -, h⟩ := Option.bind_eq_some_iff.mp h
    obtain ⟨_, -, h⟩ := Option.bind_eq_some_iff.mp h
    obtain rfl := ClaimResult.owned.inj (Option.some.inj h)
    exact howned _ _ _ _ hout

/-- `begin_booking` stores the claim's snapshot with the phase `BOOKING`, at the claim's revision. -/
theorem view_beginBooking (db : Redis) (now : Time) (c : WindowClaim) :
    (∃ w r, (db.view c.watch.watchId).watch = some w ∧ w.status = .active ∧
      (db.view c.watch.watchId).runtime = some r ∧ r.revision = c.runtime.revision ∧
      (db.beginBooking now c).2.view = update db.view c.watch.watchId
        { db.view c.watch.watchId with
          runtime := some { c.runtime with phase := some .booking }, runtimeTtl := none }) ∨
    (db.beginBooking now c).2 = db := by
  unfold beginBooking beginScript
  dsimp only
  split
  next => exact .inr rfl
  next w hw =>
    split
    next => exact .inr rfl
    next hactive =>
      split
      next => exact .inr rfl
      next r hr =>
        split
        next => exact .inr rfl
        next hrev =>
          split
          next => exact .inr rfl
          next =>
            split
            next => exact .inr rfl
            next => exact .inr rfl
            next =>
              split
              next => exact .inr rfl
              next =>
                exact .inl ⟨w, r, hw, not_not.mp hactive, hr, eq_of_luaToString (not_not.mp hrev),
                  view_setRuntime db _ _⟩

/-- `commit_window` stores a new record, one revision above that of its claim: a terminal one without a
marker, another one with the marker that its sidecar asks for. -/
theorem view_commitWindow (db : Redis) {retention : Duration} (hret : 0 ≤ retention) (now : Time)
    (c : WindowClaim) (nw : Watch) (nr : WatchRuntime) :
    (∃ w r watchTtl runtimeTtl, (db.view c.watch.watchId).watch = some w ∧ w.status = .active ∧
      (db.view c.watch.watchId).runtime = some r ∧ r.revision = c.runtime.revision ∧
      (nw.status = .active → watchTtl = none ∧ runtimeTtl = none) ∧
      (∀ w' eventId, (db.commitWindow retention now c nw nr).1 = some (.committed w' eventId) → w' = nw) ∧
      (db.commitWindow retention now c nw nr).2.view = update db.view c.watch.watchId
        ⟨some nw, some (storedRuntime retention now c nw nr), (db.view c.watch.watchId).fence,
          if nw.status = .active then scheduledMs (storedRuntime retention now c nw nr) else none,
          watchTtl, runtimeTtl⟩) ∨
    ((∀ w' eventId, (db.commitWindow retention now c nw nr).1 ≠ some (.committed w' eventId)) ∧
      (db.commitWindow retention now c nw nr).2 = db) := by
  unfold commitWindow commitScript
  dsimp only
  split
  next => exact .inr ⟨by simp, rfl⟩
  next w hw =>
    split
    next => exact .inr ⟨by simp, rfl⟩
    next hactive =>
      split
      next => exact .inr ⟨by simp, rfl⟩
      next r hr =>
        split
        next => exact .inr ⟨by simp, rfl⟩
        next hrev =>
          split
          next => exact .inr ⟨by simp, rfl⟩
          next =>
            split
            next => exact .inr ⟨by simp, rfl⟩
            next => exact .inr ⟨by simp, rfl⟩
            next =>
              have hguards := not_not.mp hactive
              have hrevision := eq_of_luaToString (not_not.mp hrev)
              let stored := storedRuntime retention now c nw nr
              let base := ((db.setWatch c.watch.watchId nw).setRuntime c.watch.watchId stored).del
                (.claim c.watch.watchId)
              have hbase : base.view = update db.view c.watch.watchId
                  ⟨some nw, some stored, (db.view c.watch.watchId).fence,
                    (db.view c.watch.watchId).score, none, none⟩ := by
                simp [base, view_delClaim, view_setRuntime, view_setWatch]
              cases hterminal : nw.status.isTerminal with
              | true =>
                have hended : nw.status ≠ .active := by simpa using hterminal
                have hpos := terminalDeadlines_pos hret now
                simp only [if_true]
                obtain ⟨runtimeTtl, hruntime⟩ := view_pexpire_runtime _ c.watch.watchId hpos
                obtain ⟨watchTtl, hwatch⟩ := view_pexpire_watch _ c.watch.watchId hpos
                refine .inl ⟨w, r, watchTtl, runtimeTtl, hw, hguards, hr, hrevision,
                  fun h => absurd h hended, ?_, ?_⟩
                · rintro w' eventId ⟨⟩
                  rfl
                rw [hruntime, hwatch, if_neg hended]
                have hindex : ∀ (db : Redis) terminal events,
                    view { db with terminal := terminal, events := events } = db.view := fun _ _ _ => rfl
                rw [hindex, view_unschedule]
                simp [base, stored] at hbase
                simp [hbase]
              | false =>
                have hactive' : nw.status = .active := by simpa using hterminal
                simp only [Bool.false_eq_true, if_false]
                refine .inl ⟨w, r, none, none, hw, hguards, hr, hrevision, fun _ => ⟨rfl, rfl⟩, ?_, ?_⟩
                · rintro w' eventId ⟨⟩
                  rfl
                rw [if_pos hactive']
                change view { base with schedule := _ } = _
                cases scheduledMs stored with
                | none =>
                  apply view_eq_update
                  · simp [view, base, stored, setWatch, setRuntime, del, Dict.get?_erase]
                  · intro v hv
                    simp [view, base, setWatch, setRuntime, del, Dict.get?_insert_ne, Dict.get?_erase, hv]
                | some ms =>
                  apply view_eq_update
                  · simp [view, base, stored, setWatch, setRuntime, del, Dict.get?_erase]
                  · intro v hv
                    simp [view, base, setWatch, setRuntime, del, Dict.get?_insert_ne, Dict.get?_erase, hv]
/-- `CANCEL_IF_ACTIVE` changes nothing, or an active watch that nobody has overtaken: it replaces the
sidecar, or finishes the watch. -/
theorem view_cancelScript (db : Redis) (u cas : String) (mode : CancelMode) :
    (db.cancelScript u cas mode).2.view = db.view ∨
    ∃ w, (db.view u).watch = some w ∧ w.status = .active ∧ db.overtaken u cas = false ∧
      ((∃ r stored, mode = .pending r ∧ (db.view u).runtime = some stored ∧
        (db.cancelScript u cas mode).2.view =
          update db.view u { db.view u with runtime := some r, runtimeTtl := none }) ∨
      ∃ nw nr ms ttl, mode = .cancel nw nr ms ttl ∧ (0 < ttl → ∃ watchTtl runtimeTtl,
        (db.cancelScript u cas mode).2.view = update db.view u
          ⟨some nw, (db.view u).runtime.bind fun _ => nr, (db.view u).fence, none, watchTtl,
            runtimeTtl⟩)) := by
  unfold cancelScript
  split
  next => exact .inl rfl
  next w hw =>
    split
    next => exact .inl rfl
    next hactive =>
      split
      next => exact .inl rfl
      next hover =>
        cases mode with
        | pending r =>
          dsimp only
          split
          next hstored =>
            obtain ⟨stored, hstored⟩ := Option.isSome_iff_exists.mp hstored
            exact .inr ⟨w, hw, not_not.mp hactive, by simpa using hover,
              .inl ⟨r, stored, rfl, hstored, view_setRuntime db u r⟩⟩
          next => exact .inl rfl
        | cancel nw nr ms ttl =>
          exact .inr ⟨w, hw, not_not.mp hactive, by simpa using hover,
            .inr ⟨nw, nr, ms, ttl, rfl, fun hpos => view_finish db u nw nr ms hpos none⟩⟩

/-- `EXPIRE_IF_ELIGIBLE` answers `APPLIED` when it finishes an active watch that nobody has overtaken, and
changes nothing otherwise. -/
theorem view_expireScript (db : Redis) (u cas : String) (nw : Watch) (nr : Option WatchRuntime)
    (eventId : Option String) (ms ttl : ℤ) :
    ((∀ w, (db.expireScript u cas nw nr eventId ms ttl).1 ≠ .applied w) ∧
      (db.expireScript u cas nw nr eventId ms ttl).2 = db) ∨
    ∃ w, (db.view u).watch = some w ∧ w.status = .active ∧ db.overtaken u cas = false ∧
      (0 < ttl → ∃ watchTtl runtimeTtl,
        (db.expireScript u cas nw nr eventId ms ttl).2.view = update db.view u
          ⟨some nw, (db.view u).runtime.bind fun _ => nr, (db.view u).fence, none, watchTtl,
            runtimeTtl⟩) := by
  unfold expireScript
  split
  next => exact .inl ⟨by simp, rfl⟩
  next w hw =>
    split
    next => exact .inl ⟨by simp, rfl⟩
    next hactive =>
      split
      next => exact .inl ⟨by simp, rfl⟩
      next hover =>
        exact .inr ⟨w, hw, not_not.mp hactive, by simpa using hover,
          fun hpos => view_finish db u nw nr ms hpos eventId⟩

/-- `release_claim` is about the claim alone. -/
theorem view_releaseClaim (db : Redis) (c : WindowClaim) : (db.releaseClaim c).2.view = db.view := by
  unfold releaseClaim releaseScript
  repeat' split
  all_goals first
    | rfl
    | exact view_delClaim db _

/-- `synthesize_marker` changes nothing, or it stores the sidecar and the marker of an active watch
without one, and the fence where there is none. -/
theorem view_synthesizeMarker (db : Redis) (now : Time) (u : String) (runtime : WatchRuntime) :
    (db.synthesizeMarker now u runtime).2 = db ∨
    ∃ w ms, (db.view u).watch = some w ∧ w.status = .active ∧ (db.view u).score = none ∧
      (db.synthesizeMarker now u runtime).2.view = update db.view u
        ⟨some w, some runtime, some ((db.view u).fence.getD 0), some ms, (db.view u).watchTtl, none⟩ := by
  unfold synthesizeMarker
  cases scheduledMs runtime with
  | none => exact .inl rfl
  | some ms =>
    unfold synthesizeScript
    dsimp only
    split
    next => exact .inl rfl
    next w hw =>
      split
      next => exact .inl rfl
      next hactive =>
        split
        next => exact .inl rfl
        next => exact .inl rfl
        next =>
          split
          next => exact .inl rfl
          next hscore =>
            have hfree : db.schedule.get? u = none := by simpa using hscore
            refine .inr ⟨w, ms, hw, not_not.mp hactive, hfree, view_eq_update ?_ fun v hv => ?_⟩
            · cases hfence : db.fence.get? u with
              | none => simp [view, setRuntime, Dict.get?_erase, hw, hfence]
              | some token => simp [view, setRuntime, Dict.get?_erase, hw, hfence]
            · cases hfence : db.fence.get? u with
              | none => simp [view, setRuntime, Dict.get?_erase, Dict.get?_insert_ne, hv, hfence]
              | some token => simp [view, setRuntime, Dict.get?_erase, Dict.get?_insert_ne, hv, hfence]

/-- `prune_index_member` leaves the document alone; with `from_all` it deletes the rest of the view. -/
theorem view_pruneIndexMember (db : Redis) (u : String) (fromAll : Bool) :
    (db.pruneIndexMember u fromAll).view = if fromAll then update db.view u
      ⟨(db.view u).watch, none, none, none, (db.view u).watchTtl, none⟩ else db.view := by
  cases fromAll with
  | false => rfl
  | true =>
    rw [if_pos rfl]
    apply view_eq_update
    · simp [view, pruneIndexMember, del, Dict.get?_erase]
    · intro v hv
      simp [view, pruneIndexMember, del, Dict.get?_erase, hv]

/-- A key that goes takes at most the document or the sidecar of one watch, and it had a time to live. -/
theorem view_del (db : Redis) (k : RedisKey) (v : String) :
    (db.del k).view v = db.view v ∨
    (k = .watch v ∧ (db.del k).view v = { db.view v with watch := none, watchTtl := none }) ∨
    (k = .runtime v ∧ (db.del k).view v = { db.view v with runtime := none, runtimeTtl := none }) := by
  cases k with
  | watch u =>
    rw [view_delWatch]
    by_cases hv : v = u
    · subst hv
      exact .inr (.inl ⟨rfl, Function.update_self ..⟩)
    · exact .inl (Function.update_of_ne hv ..)
  | runtime u =>
    rw [view_delRuntime]
    by_cases hv : v = u
    · subst hv
      exact .inr (.inr ⟨rfl, Function.update_self ..⟩)
    · exact .inl (Function.update_of_ne hv ..)
  | claim u => exact .inl (by rw [view_delClaim])
  | dispatch u windowHash => exact .inl (by rw [view_delDispatch])

/-! ## The active index -/

/-- Only a creation adds a member to the active index. -/
theorem active_create (db : Redis) (w : Watch) (r : WatchRuntime) {v : String}
    (hv : v ∈ (db.create w r).2.active) : v = w.watchId ∨ v ∈ db.active := by
  unfold create createWithSchedule at hv
  split at hv
  · exact .inr hv
  · exact List.mem_insert_iff.mp hv

theorem active_claimWindow (db : Redis) (now : Time) (u windowId ownerId : String) (lease : Duration)
    (ignoreSchedule : Bool) :
    (db.claimWindow now u windowId ownerId lease ignoreSchedule).2.active = db.active := by
  unfold claimWindow claimScript
  dsimp only
  repeat' split
  all_goals rfl

theorem active_beginBooking (db : Redis) (now : Time) (c : WindowClaim) :
    (db.beginBooking now c).2.active = db.active := by
  unfold beginBooking beginScript
  dsimp only
  repeat' split
  all_goals rfl

theorem active_pexpire (db : Redis) (k : RedisKey) (ms : ℤ) : (db.pexpire k ms).active = db.active := by
  unfold pexpire
  split_ifs
  · rfl
  · cases k <;> rfl
  · rfl

theorem active_finish (db : Redis) (u : String) (w : Watch) (r : Option WatchRuntime) (ms ttl : ℤ)
    (eventId : Option String) : (db.finish u w r ms ttl eventId).active = db.active.erase u := by
  unfold finish
  dsimp only
  rw [active_pexpire, active_pexpire]
  split <;> rfl

theorem active_commitWindow (db : Redis) (retention : Duration) (now : Time) (c : WindowClaim)
    (nw : Watch) (nr : WatchRuntime) : (db.commitWindow retention now c nw nr).2.active ⊆ db.active := by
  unfold commitWindow commitScript
  dsimp only
  repeat' split
  all_goals first
    | exact List.Subset.refl _
    | simp only [active_pexpire]
      exact List.erase_subset

theorem active_cancelScript (db : Redis) (u cas : String) (mode : CancelMode) :
    (db.cancelScript u cas mode).2.active ⊆ db.active := by
  unfold cancelScript
  repeat' split
  all_goals first
    | exact List.Subset.refl _
    | simp only [active_finish]
      exact List.erase_subset

theorem active_expireScript (db : Redis) (u cas : String) (nw : Watch) (nr : Option WatchRuntime)
    (eventId : Option String) (ms ttl : ℤ) :
    (db.expireScript u cas nw nr eventId ms ttl).2.active ⊆ db.active := by
  unfold expireScript
  repeat' split
  all_goals first
    | exact List.Subset.refl _
    | simp only [active_finish]
      exact List.erase_subset

theorem active_releaseClaim (db : Redis) (c : WindowClaim) : (db.releaseClaim c).2.active = db.active := by
  unfold releaseClaim releaseScript
  repeat' split
  all_goals rfl

theorem active_synthesizeMarker (db : Redis) (now : Time) (u : String) (runtime : WatchRuntime) :
    (db.synthesizeMarker now u runtime).2.active = db.active := by
  unfold synthesizeMarker synthesizeScript
  repeat' split
  all_goals rfl

theorem active_pruneIndexMember (db : Redis) (u : String) (fromAll : Bool) :
    (db.pruneIndexMember u fromAll).active ⊆ db.active := by
  cases fromAll <;> exact List.erase_subset

theorem active_del (db : Redis) (k : RedisKey) : (db.del k).active = db.active := by
  cases k <;> rfl

end Redis

end Dibs
