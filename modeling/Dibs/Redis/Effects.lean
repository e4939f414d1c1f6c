import Dibs.Redis.Repository

/-!
# What the scripts do to documents and sidecars

`Redis.record` is what the database stores of one watch: its document and its sidecar. Each method
gets one lemma that says everything it can do to the records: either it left them all as they were, or
its guards held and it replaced the record of one watch in the given way. Claims and releases touch no
record.

The revision compare of the scripts passes on equal revisions only (`revision_eq_of_not_overtaken`), so
a method that replaces a record does it at the revision its caller knows.
-/

namespace Dibs

open Function (update)

namespace Redis

/-- The document and the sidecar of a watch. -/
def record (db : Redis) (u : String) : Option Watch × Option WatchRuntime :=
  (db.watches.get? u, db.runtimes.get? u)

/-- The records of `db'` are those of `db` with one replaced. -/
theorem record_eq_update {db db' : Redis} {u : String} {x : Option Watch × Option WatchRuntime}
    (hu : db'.record u = x) (hne : ∀ v, u ≠ v → db'.record v = db.record v) :
    db'.record = update db.record u x := by
  funext v
  by_cases h : v = u
  · rw [h, hu, Function.update_self]
  · rw [hne v (Ne.symm h), Function.update_of_ne h]

theorem record_setWatch (db : Redis) (u : String) (w : Watch) :
    (db.setWatch u w).record = update db.record u (some w, (db.record u).2) := by
  apply record_eq_update
  · simp [record, setWatch]
  · intro v hv
    simp [record, setWatch, Dict.get?_insert_ne, hv]

theorem record_setRuntime (db : Redis) (u : String) (r : WatchRuntime) :
    (db.setRuntime u r).record = update db.record u ((db.record u).1, some r) := by
  apply record_eq_update
  · simp [record, setRuntime]
  · intro v hv
    simp [record, setRuntime, Dict.get?_insert_ne, hv]

@[simp]
theorem record_delClaim (db : Redis) (u : String) : (db.del (.claim u)).record = db.record := rfl

theorem record_delRuntime (db : Redis) (u : String) :
    (db.del (.runtime u)).record = update db.record u ((db.record u).1, none) := by
  apply record_eq_update
  · simp [record, del]
  · intro v hv
    simp [record, del, Dict.get?_erase_ne, hv]

@[simp]
theorem record_unschedule (db : Redis) (u : String) : (db.unschedule u).record = db.record := rfl

/-- A positive time to live deletes nothing. -/
theorem record_pexpire (db : Redis) (k : RedisKey) {ms : ℤ} (h : 0 < ms) :
    (db.pexpire k ms).record = db.record := by
  unfold pexpire
  rw [if_neg (not_le.mpr h)]
  split <;> rfl

/-- Finishing a watch stores the terminal document, and the new sidecar in place of a present one. -/
theorem record_finish (db : Redis) (u : String) (w : Watch) (r : Option WatchRuntime) (ms : ℤ)
    {ttl : ℤ} (h : 0 < ttl) (eventId : Option String) :
    (db.finish u w r ms ttl eventId).record =
      update db.record u (some w, (db.record u).2.bind fun _ => r) := by
  have hget : (db.setWatch u w).runtimes.get? u = (db.record u).2 := rfl
  unfold finish
  simp only [record_pexpire _ _ h, hget]
  cases hr : (db.record u).2 with
  | none =>
    change (db.setWatch u w).record = _
    rw [record_setWatch, hr]
    rfl
  | some stored =>
    cases r with
    | none =>
      change ((db.setWatch u w).del (.runtime u)).record = _
      rw [record_delRuntime, record_setWatch, Function.update_idem, Function.update_self]
      rfl
    | some r =>
      change ((db.setWatch u w).setRuntime u r).record = _
      rw [record_setRuntime, record_setWatch, Function.update_idem, Function.update_self]
      rfl

/-! ## The revision compare -/

/-- A sidecar that was read gives a revision to expect. -/
theorem casRevision_some (r : WatchRuntime) : casRevision (some r) = toString r.revision := rfl

/-- The compare that stops a script: the stored revision does not read as the expected one. -/
theorem overtaken_iff (db : Redis) (u : String) (expected : WatchRuntime) :
    db.overtaken u (casRevision (some expected)) = true ↔
      ∃ r, (db.record u).2 = some r ∧ luaToString r.revision ≠ toString expected.revision := by
  unfold overtaken
  cases hr : db.runtimes.get? u with
  | none => simp [record, hr]
  | some r => simp [record, hr, casRevision_some]

/-- A script that the compare does not stop runs at the revision its caller read. -/
theorem revision_eq_of_not_overtaken {db : Redis} {u : String} {expected r : WatchRuntime}
    (hr : (db.record u).2 = some r) (h : db.overtaken u (casRevision (some expected)) = false) :
    r.revision = expected.revision := by
  have hno := mt (overtaken_iff db u expected).mpr (by simp [h])
  refine eq_of_luaToString (not_not.mp fun hne => hno ⟨r, hr, ?_⟩)
  exact hne

/-! ## What each method does -/

/-- `create_with_schedule` stores a record under an unused id. -/
theorem create_cases (db : Redis) (w : Watch) (r : WatchRuntime) :
    ((db.record w.watchId).1 = none ∧
      (db.create w r).2.record = update db.record w.watchId (some w, some r)) ∨
    (db.create w r).2 = db := by
  unfold create createWithSchedule
  cases h : db.watches.get? w.watchId with
  | some stored => exact .inr rfl
  | none =>
    refine .inl ⟨h, ?_⟩
    change ((db.setWatch w.watchId w).setRuntime w.watchId r).record = _
    rw [record_setRuntime, record_setWatch, Function.update_idem, Function.update_self]

/-- `claim_window` changes no record. -/
theorem record_claimWindow (db : Redis) (now : Time) (u w o : String) (lease : Duration)
    (ignoreSchedule : Bool) :
    (db.claimWindow now u w o lease ignoreSchedule).2.record = db.record := by
  unfold claimWindow claimScript
  dsimp only
  repeat' split
  all_goals rfl

/-- `release_claim` changes no record. -/
theorem record_releaseClaim (db : Redis) (c : WindowClaim) :
    (db.releaseClaim c).2.record = db.record := by
  unfold releaseClaim releaseScript
  repeat' split
  all_goals rfl

/-- `begin_booking` stores the claim's snapshot with the phase `BOOKING`, at the claim's revision. -/
theorem beginBooking_cases (db : Redis) (now : Time) (c : WindowClaim) :
    (∃ w r, db.record c.watch.watchId = (some w, some r) ∧ w.status = .active ∧
      r.revision = c.runtime.revision ∧ r.cancelRequested = false ∧
      (db.beginBooking now c).2.record = update db.record c.watch.watchId
        (some w, some { c.runtime with phase := some .booking })) ∨
    (db.beginBooking now c).2 = db := by
  unfold beginBooking beginScript
  dsimp only
  split
  next => exact .inr rfl
  next w hw =>
    split
    next => exact .inr rfl
    next hactive =>
      split
      next => exact .inr rfl
      next r hr =>
        split
        next => exact .inr rfl
        next hrev =>
          split
          next => exact .inr rfl
          next =>
            split
            next => exact .inr rfl
            next => exact .inr rfl
            next =>
              split
              next => exact .inr rfl
              next hcancel =>
                refine .inl ⟨w, r, by simp [record, hw, hr], not_not.mp hactive,
                  eq_of_luaToString (not_not.mp hrev), by simpa using hcancel, ?_⟩
                rw [record_setRuntime]
                simp [record, hw]

/-- The time to live of a finished watch is positive. -/
theorem terminalDeadlines_pos {retention : Duration} (h : 0 ≤ retention) (now : Time) :
    0 < (terminalDeadlines retention now).2 := by
  have hgrace : wholeMilliseconds retentionGrace = 3600 * 1000 := wholeMilliseconds_second (by decide)
  have hmono : wholeMilliseconds retentionGrace ≤ wholeMilliseconds (retention + retentionGrace) :=
    wholeMilliseconds_mono (le_add_of_nonneg_left h)
  change 0 < wholeMilliseconds (retention + retentionGrace)
  omega

/-- `COMMIT_WINDOW` stores the new record at the revision that was expected. -/
theorem commitScript_cases (db : Redis) (u : String) (revision : ℕ) (token ownerId : String)
    (nw : Watch) (nr : WatchRuntime) {terminal : Option (ℤ × ℤ)} (hpos : ∀ t ∈ terminal, 0 < t.2)
    (next : Option ℤ) (eventId : Option String) (nowMs : ℤ) :
    (∃ w r, db.record u = (some w, some r) ∧ w.status = .active ∧ r.revision = revision ∧
      (∃ issued, (db.commitScript u (toString revision) token ownerId nw nr terminal next eventId nowMs).1 =
        some (.committed nw issued)) ∧
      (db.commitScript u (toString revision) token ownerId nw nr terminal next eventId nowMs).2.record =
        update db.record u (some nw, some nr)) ∨
    (db.commitScript u (toString revision) token ownerId nw nr terminal next eventId nowMs).2 = db := by
  have hset : (((db.setWatch u nw).setRuntime u nr).del (.claim u)).record =
      update db.record u (some nw, some nr) := by
    rw [record_delClaim, record_setRuntime, record_setWatch, Function.update_idem, Function.update_self]
  unfold commitScript
  dsimp only
  split
  next => exact .inr rfl
  next w hw =>
    split
    next => exact .inr rfl
    next hactive =>
      split
      next => exact .inr rfl
      next r hr =>
        split
        next => exact .inr rfl
        next hrev =>
          split
          next => exact .inr rfl
          next =>
            split
            next => exact .inr rfl
            next => exact .inr rfl
            next =>
              refine .inl ⟨w, r, by simp [record, hw, hr], not_not.mp hactive,
                eq_of_luaToString (not_not.mp hrev), ?_⟩
              cases terminal with
              | none => exact ⟨⟨none, rfl⟩, hset⟩
              | some t =>
                have httl : 0 < t.2 := hpos t rfl
                refine ⟨⟨eventId, rfl⟩, ?_⟩
                dsimp only
                rw [record_pexpire _ _ httl, record_pexpire _ _ httl]
                exact hset

/-- `commit_window` stores a new record, one revision above that of its claim. -/
theorem commitWindow_cases (db : Redis) {retention : Duration} (hret : 0 ≤ retention) (now : Time)
    (c : WindowClaim) (nw : Watch) (nr : WatchRuntime) :
    (∃ w r, db.record c.watch.watchId = (some w, some r) ∧ w.status = .active ∧
      r.revision = c.runtime.revision ∧
      (∃ eventId, (db.commitWindow retention now c nw nr).1 = some (.committed nw eventId)) ∧
      (db.commitWindow retention now c nw nr).2.record =
        update db.record c.watch.watchId (some nw, some (storedRuntime retention now c nw nr))) ∨
    (db.commitWindow retention now c nw nr).2 = db := by
  refine commitScript_cases db _ _ _ _ _ _ (fun t ht => ?_) _ _ _
  obtain ⟨-, rfl⟩ : nw.status.isTerminal = true ∧ terminalDeadlines retention now = t := by
    simpa using ht
  exact terminalDeadlines_pos hret now

/-- `CANCEL_IF_ACTIVE`, by its reply. -/
theorem cancelScript_cases (db : Redis) (u cas : String) (mode : CancelMode) :
    ((db.record u).1 = none ∧ db.cancelScript u cas mode = (.unknown, db)) ∨
    (∃ w, (db.record u).1 = some w ∧ w.status ≠ .active ∧
      db.cancelScript u cas mode = (.noop w, db)) ∨
    (∃ w, (db.record u).1 = some w ∧ w.status = .active ∧ db.overtaken u cas = true ∧
      db.cancelScript u cas mode = (.fenced, db)) ∨
    (∃ w, (db.record u).1 = some w ∧ w.status = .active ∧ db.overtaken u cas = false ∧
      ((∃ r, mode = .pending r ∧ (db.cancelScript u cas mode).1 = .notEligible w ∧
        (db.cancelScript u cas mode).2.record =
          update db.record u (some w, (db.record u).2.map fun _ => r)) ∨
      (∃ nw nr ms ttl, mode = .cancel nw nr ms ttl ∧ (db.cancelScript u cas mode).1 = .applied nw ∧
        (0 < ttl → (db.cancelScript u cas mode).2.record =
          update db.record u (some nw, (db.record u).2.bind fun _ => nr))))) := by
  unfold cancelScript
  split
  next hw => exact .inl ⟨hw, rfl⟩
  next w hw =>
    split
    next hactive => exact .inr (.inl ⟨w, hw, hactive, rfl⟩)
    next hactive =>
      have ha : w.status = .active := not_not.mp hactive
      split
      next hover => exact .inr (.inr (.inl ⟨w, hw, ha, hover, rfl⟩))
      next hover =>
        refine .inr (.inr (.inr ⟨w, hw, ha, by simpa using hover, ?_⟩))
        cases mode with
        | pending r =>
          refine .inl ⟨r, rfl, rfl, ?_⟩
          cases hr : db.runtimes.get? u with
          | none =>
            simp only [Dict.contains_eq, hr, Option.isSome_none, Bool.false_eq_true, if_false]
            exact (Function.update_eq_self_iff.mpr (by simp [record, hw, hr])).symm
          | some stored =>
            simp only [Dict.contains_eq, hr, Option.isSome_some, if_true, record_setRuntime]
            simp [record, hw, hr]
        | cancel nw nr ms ttl =>
          exact .inr ⟨nw, nr, ms, ttl, rfl, rfl, fun h => record_finish db u nw nr ms h none⟩

/-- `EXPIRE_IF_ELIGIBLE`, by its reply. -/
theorem expireScript_cases (db : Redis) (u cas : String) (nw : Watch) (nr : Option WatchRuntime)
    (eventId : Option String) (ms ttl : ℤ) :
    (∃ w, (db.record u).1 = some w ∧ w.status = .active ∧ db.overtaken u cas = false ∧
      (db.expireScript u cas nw nr eventId ms ttl).1 = .applied nw ∧
      (0 < ttl → (db.expireScript u cas nw nr eventId ms ttl).2.record =
        update db.record u (some nw, (db.record u).2.bind fun _ => nr))) ∨
    ((∀ w, (db.expireScript u cas nw nr eventId ms ttl).1 ≠ .applied w) ∧
      (db.expireScript u cas nw nr eventId ms ttl).2 = db) := by
  unfold expireScript
  split
  next => exact .inr ⟨by simp, rfl⟩
  next w hw =>
    split
    next => exact .inr ⟨by simp, rfl⟩
    next hactive =>
      split
      next => exact .inr ⟨by simp, rfl⟩
      next hover =>
        exact .inl ⟨w, hw, not_not.mp hactive, by simpa using hover, rfl,
          fun h => record_finish db u nw nr ms h eventId⟩

end Redis

end Dibs
