import Dibs.Lib.SortedSet
import Dibs.Recovery.Candidates
import Dibs.Redis.Effects

/-!
# The database as recovery finds it

The recovery surface of `RedisWatchRepository` in `backend/db/repositories/watches.py`, with the scripts
`SYNTHESIZE_MARKER` and `CLEANUP_DUE`. Recovery also meets sidecars that do not decode: a key is there,
`get_runtime` reads it as missing, and no claim on the watch succeeds.

`RecoveryDb.keys` is everything that the database holds of one watch, and each method has one lemma that
says what it does to the keys of every watch.
-/

namespace Dibs

/-- `_claim_is_live`: the number behind the last bar of a claim value lies ahead. -/
def claimIsLive (claim : Option String) (nowMs : ℤ) : Bool :=
  claim.any fun v =>
    (pyInt (String.ofList (v.toList.reverse.takeWhile (· ≠ '|')).reverse)).any fun expires =>
      decide (nowMs < expires)

/-- No live claim: the key is absent, or both its readers, the listing and the scripts, find that it has
expired. -/
def NoLiveClaim (claim : Option String) (nowMs : ℤ) : Prop :=
  claimIsLive claim nowMs = false ∧ claim.elim (some false) (liveClaim · nowMs) = some false

/-- A claim that has expired stays so. -/
theorem NoLiveClaim.mono {claim : Option String} {nowMs laterMs : ℤ} (h : NoLiveClaim claim nowMs)
    (hle : nowMs ≤ laterMs) : NoLiveClaim claim laterMs := by
  cases claim with
  | none => exact ⟨rfl, rfl⟩
  | some v =>
    obtain ⟨hpython, hlua⟩ := h
    constructor
    · simp only [claimIsLive, Option.any_some, Option.any_eq_false] at hpython ⊢
      intro expires hexpires
      have := hpython expires hexpires
      simp only [decide_eq_false_iff_not] at this ⊢
      omega
    · simp only [Option.elim_some, liveClaim, Option.bind_eq_bind, Option.bind_eq_some_iff] at hlua ⊢
      obtain ⟨held, hheld, expires, hexpires, hlate⟩ := hlua
      refine ⟨held, hheld, expires, hexpires, ?_⟩
      simp only [Option.pure_def, Option.some.injEq, decide_eq_false_iff_not] at hlate ⊢
      omega

namespace Redis

/-- `prune_index_member`. -/
def pruneIndexMember (db : Redis) (watchId : String) (fromAll : Bool) : Redis :=
  let db := { db with active := db.active.erase watchId }
  if fromAll then
    let db := (db.del (.runtime watchId)).del (.claim watchId)
    { db with
      all := db.all.erase watchId
      fence := db.fence.erase watchId
      schedule := db.schedule.erase watchId }
  else db

/-- `SYNTHESIZE_MARKER`. -/
def synthesizeScript (db : Redis) (watchId : String) (runtime : WatchRuntime)
    (scheduledMs nowMs : ℤ) : Option Bool × Redis :=
  match db.watches.get? watchId with
  | none => (some false, db)
  | some w =>
    if w.status ≠ .active then (some false, db)
    else match (db.claims.get? watchId).elim (some false) (liveClaim · nowMs) with
    | none => (none, db)
    | some true => (some false, db)
    | some false =>
      if db.schedule.contains watchId then (some false, db)
      else
        let db := db.setRuntime watchId runtime
        (some true, { db with
          fence := if db.fence.contains watchId then db.fence else db.fence.insert watchId 0
          schedule := db.schedule.insert watchId scheduledMs })

/-- `synthesize_marker`. -/
def synthesizeMarker (db : Redis) (now : Time) (watchId : String) (runtime : WatchRuntime) :
    Option Bool × Redis :=
  match scheduledMs runtime with
  | some scheduledMs => db.synthesizeScript watchId runtime scheduledMs (toMs now)
  | none => (some false, db)

/-- `expire_if_eligible` finishes an exhausted watch whose revision it can compare. -/
theorem expireIfEligible_applies {db : Redis} (retention : Duration) {now : Time} {u : String} {w : Watch}
    (hget : db.get u = some w) (hactive : w.status = .active) (hdue : w.isExhausted now = true)
    (hover : db.overtaken u (casRevision (db.getRuntime u)) = false) :
    ∃ eventId, (db.expireIfEligible retention now u none false).2 =
      db.finish u (w.ended .expired now) ((db.getRuntime u).map (·.finished (now + retention)))
        (terminalDeadlines retention now).1 (terminalDeadlines retention now).2 eventId := by
  have hwatch : db.watches.get? u = some w := (Option.filter_eq_some_iff.mp hget).1
  let revision := ((db.getRuntime u).map (·.revision + 1)).getD 0
  refine ⟨some (terminalEventId u .expired revision), ?_⟩
  simp [expireIfEligible, hget, expireRequest, hdue, expireScript, hwatch, hactive, hover, revision]

/-- What `expire_if_eligible` does to the database: nothing, or it finishes an active watch whose time or
attempts are over, at the revision that it read. -/
theorem expireIfEligible_cases (db : Redis) (retention : Duration) (now : Time) (u : String) :
    (db.expireIfEligible retention now u none false).2 = db ∨
    ∃ w, db.get u = some w ∧ w.status = .active ∧ w.isExhausted now = true ∧
      db.overtaken u (casRevision (db.getRuntime u)) = false ∧
      ∃ eventId, (db.expireIfEligible retention now u none false).2 =
        db.finish u (w.ended .expired now) ((db.getRuntime u).map (·.finished (now + retention)))
          (terminalDeadlines retention now).1 (terminalDeadlines retention now).2 eventId := by
  cases hget : db.get u with
  | none => exact .inl (by simp only [expireIfEligible, hget])
  | some w =>
    cases hterminal : w.status.isTerminal with
    | true => exact .inl (by simp only [expireIfEligible, hget, hterminal, if_true])
    | false =>
      cases hdue : w.isExhausted now with
      | false =>
        refine .inl ?_
        simp [expireIfEligible, hget, hterminal, expireRequest, hdue]
      | true =>
        have hactive : w.status = .active := by simpa using hterminal
        have hwatch : db.watches.get? u = some w := (Option.filter_eq_some_iff.mp hget).1
        cases hover : db.overtaken u (casRevision (db.getRuntime u)) with
        | true =>
          refine .inl ?_
          simp [expireIfEligible, hget, expireRequest, hdue, expireScript, hwatch, hactive, hover]
        | false =>
          exact .inr ⟨w, rfl, hactive, hdue, rfl, expireIfEligible_applies retention hget hactive hdue hover⟩

/-- The writes that finish a watch, table by table. -/
theorem finish_tables (db : Redis) (u : String) (w : Watch) (r : Option WatchRuntime) (ms : ℤ) {ttl : ℤ}
    (h : 0 < ttl) (eventId : Option String) :
    (db.finish u w r ms ttl eventId).watches = db.watches.insert u w ∧
    (db.finish u w r ms ttl eventId).claims = db.claims.erase u ∧
    (db.finish u w r ms ttl eventId).schedule = db.schedule.erase u ∧
    (db.finish u w r ms ttl eventId).active = db.active.erase u ∧
    (db.finish u w r ms ttl eventId).terminal = db.terminal.insert u ms := by
  have hpexpire : ∀ (db : Redis) (k : RedisKey), ∃ keep, db.pexpire k ttl = { db with ttl := keep } := by
    intro db k
    unfold pexpire
    rw [if_neg (not_le.mpr h)]
    split
    · exact ⟨db.ttl, rfl⟩
    · exact ⟨_, rfl⟩
  unfold finish
  dsimp only
  obtain ⟨keep, hkeep⟩ := hpexpire _ (.watch u)
  rw [hkeep]
  obtain ⟨keep', hkeep'⟩ := hpexpire _ (.runtime u)
  rw [hkeep']
  split <;> exact ⟨rfl, rfl, rfl, rfl, rfl⟩

/-- An expiry leaves a missing sidecar missing. -/
theorem expireIfEligible_runtimes (db : Redis) {retention : Duration} (h : 0 ≤ retention) (now : Time)
    (u : String) {v : String} (hv : db.runtimes.get? v = none) :
    (db.expireIfEligible retention now u none false).2.runtimes.get? v = none := by
  rcases db.expireIfEligible_cases retention now u with hdb | ⟨w, -, -, -, -, eventId, hdb⟩ <;> rw [hdb]
  · exact hv
  · have hrecord := congrFun (record_finish db u (w.ended .expired now)
      ((db.getRuntime u).map (·.finished (now + retention))) (terminalDeadlines retention now).1
      (terminalDeadlines_pos h now) eventId) v
    by_cases hvu : v = u
    · subst hvu
      rw [Function.update_self] at hrecord
      exact (congrArg Prod.snd hrecord).trans (by simp [record, hv])
    · rw [Function.update_of_ne hvu] at hrecord
      exact (congrArg Prod.snd hrecord).trans hv

/-- An expiry keeps the active set a set. -/
theorem expireIfEligible_active (db : Redis) {retention : Duration} (h : 0 ≤ retention) (now : Time)
    (u : String) (hnodup : db.active.Nodup) :
    (db.expireIfEligible retention now u none false).2.active.Nodup := by
  rcases db.expireIfEligible_cases retention now u with hdb | ⟨w, -, -, -, -, eventId, hdb⟩ <;> rw [hdb]
  · exact hnodup
  · obtain ⟨-, -, -, hactive, -⟩ := finish_tables db u (w.ended .expired now)
      ((db.getRuntime u).map (·.finished (now + retention))) (terminalDeadlines retention now).1
      (terminalDeadlines_pos h now) eventId
    rw [hactive]
    exact hnodup.erase _

/-- What `synthesize_marker` does to the database: nothing, or it stores the sidecar and the marker of
an active watch without either a marker or a live claim. -/
theorem synthesizeMarker_cases (db : Redis) (now : Time) (u : String) (runtime : WatchRuntime) :
    (db.synthesizeMarker now u runtime).1 ≠ some true ∧ (db.synthesizeMarker now u runtime).2 = db ∨
    ∃ ms fence, scheduledMs runtime = some ms ∧ (db.synthesizeMarker now u runtime).1 = some true ∧
      (db.synthesizeMarker now u runtime).2 =
        { db.setRuntime u runtime with fence := fence, schedule := db.schedule.insert u ms } := by
  unfold synthesizeMarker
  cases hms : scheduledMs runtime with
  | none => exact .inl ⟨by simp, rfl⟩
  | some ms =>
    unfold synthesizeScript
    dsimp only
    split
    · exact .inl ⟨by simp, rfl⟩
    · split
      · exact .inl ⟨by simp, rfl⟩
      · split
        · exact .inl ⟨by simp, rfl⟩
        · exact .inl ⟨by simp, rfl⟩
        · split
          · exact .inl ⟨by simp, rfl⟩
          · exact .inr ⟨ms, _, rfl, rfl, rfl⟩

/-- `synthesize_marker` repairs an active watch that has neither a marker nor a live claim. -/
theorem synthesizeMarker_applies {db : Redis} {now : Time} {u : String} {runtime : WatchRuntime} {ms : ℤ}
    {w : Watch} (hms : scheduledMs runtime = some ms) (hw : db.watches.get? u = some w)
    (hactive : w.status = .active)
    (hfree : (db.claims.get? u).elim (some false) (liveClaim · (toMs now)) = some false)
    (hscore : db.schedule.get? u = none) : (db.synthesizeMarker now u runtime).1 = some true := by
  simp [synthesizeMarker, hms, synthesizeScript, hw, hactive, hfree, Dict.contains_eq, hscore]

/-- The compare of a sidecar with itself passes on a revision that the model accepts. -/
theorem overtaken_self {db : Redis} {u : String} (h : ∀ r, db.runtimes.get? u = some r → r.revision ≤ maxCount) :
    db.overtaken u (casRevision (db.getRuntime u)) = false := by
  unfold overtaken getRuntime
  cases hr : db.runtimes.get? u with
  | none => simp
  | some r =>
    have hlt : r.revision < 10 ^ 14 := (h r hr).trans_lt (by decide)
    simpa [casRevision] using luaToString_of_lt hlt

/-- The script gives a due window of an active watch to whoever asks while no claim on it is live. -/
theorem claimScript_owned {db : Redis} {u window : String} (ownerId : String) {leaseMs nowMs score : ℤ}
    {w : Watch} {runtime : WatchRuntime} (hw : db.watches.get? u = some w) (hactive : w.status = .active)
    (hruntime : db.runtimes.get? u = some runtime) (hwindow : runtime.windowId = some window)
    (hscore : db.schedule.get? u = some score) (hdue : score ≤ nowMs)
    (hfree : (db.claims.get? u).elim (some false) (liveClaim · nowMs) = some false)
    (hlease : 0 < leaseMs) :
    ∃ token expires, (db.claimScript u window ownerId leaseMs nowMs false).1 =
      some (.owned w runtime token expires) := by
  refine ⟨luaToString ((db.fence.get? u).getD 0 + 1 : ℕ), luaToString (nowMs + leaseMs), ?_⟩
  simp [claimScript, hw, hactive, hruntime, hwindow, hscore, not_lt.mpr hdue, hfree, not_le.mpr hlease]

/-- Whether the document of a watch is there and terminal. -/
def isFinished (db : Redis) (watchId : String) : Bool :=
  (db.watches.get? watchId).any fun w => w.status.isTerminal

/-- One iteration of `CLEANUP_DUE`. -/
def cleanupOne (db : Redis) (watchId : String) : Redis :=
  let db :=
    if db.isFinished watchId then
      let db := ((db.del (.watch watchId)).del (.runtime watchId)).del (.claim watchId)
      { db with
        fence := db.fence.erase watchId
        all := db.all.erase watchId
        active := db.active.erase watchId
        schedule := db.schedule.erase watchId }
    else db
  { db with terminal := db.terminal.erase watchId }

/-- The methods of the dispatch leases change nothing but these. -/
structure DispatchOnly (db db' : Redis) : Prop where
  watches : db'.watches = db.watches
  runtimes : db'.runtimes = db.runtimes
  claims : db'.claims = db.claims
  schedule : db'.schedule = db.schedule
  active : db'.active = db.active
  terminal : db'.terminal = db.terminal

theorem DispatchOnly.refl (db : Redis) : db.DispatchOnly db := ⟨rfl, rfl, rfl, rfl, rfl, rfl⟩

theorem DispatchOnly.trans {db db' db'' : Redis} (h : db.DispatchOnly db') (h' : db'.DispatchOnly db'') :
    db.DispatchOnly db'' :=
  ⟨h'.watches.trans h.watches, h'.runtimes.trans h.runtimes, h'.claims.trans h.claims,
    h'.schedule.trans h.schedule, h'.active.trans h.active, h'.terminal.trans h.terminal⟩

theorem claimDispatch_only (db : Redis) (now : Time) (marker : ScheduleMarker) (ownerId : String)
    (lease : Duration) : db.DispatchOnly (db.claimDispatch now marker ownerId lease).2 := by
  unfold claimDispatch claimDispatchScript
  dsimp only
  repeat' split
  all_goals exact ⟨rfl, rfl, rfl, rfl, rfl, rfl⟩

theorem markDispatched_only (db : Redis) (now : Time) (claim : DispatchClaim) (after : Time) :
    db.DispatchOnly (db.markDispatched now claim after).2 := by
  unfold markDispatched markDispatchedScript
  repeat' split
  all_goals exact ⟨rfl, rfl, rfl, rfl, rfl, rfl⟩

theorem releaseDispatch_only (db : Redis) (claim : DispatchClaim) :
    db.DispatchOnly (db.releaseDispatch claim).2 := by
  unfold releaseDispatch releaseDispatchScript
  repeat' split
  all_goals exact ⟨rfl, rfl, rfl, rfl, rfl, rfl⟩

end Redis

/-- The database as recovery finds it. -/
structure RecoveryDb where
  db : Redis
  /-- The watches whose sidecar key holds a text that does not decode. -/
  garbled : List String
  /-- Such a sidecar is not among those that decode. -/
  garbled_runtimes : ∀ u ∈ garbled, db.runtimes.get? u = none
  /-- A set has each member once. -/
  active_nodup : db.active.Nodup

/-- A sidecar that decodes passed the checks of `WatchRuntime`, that of its revision among them. -/
def RecoveryDb.Decodes (d : RecoveryDb) : Prop :=
  ∀ u r, d.db.runtimes.get? u = some r → r.revision ≤ maxCount

/-- Everything that the database holds of one watch, the fence and the leases of its dispatches
apart. -/
structure WatchKeys where
  watch : Option Watch
  runtime : Option WatchRuntime
  garbled : Bool
  claim : Option String
  score : Option ℤ
  active : Bool
  deadline : Option ℤ
deriving DecidableEq

namespace RecoveryDb

/-- What the database holds of a watch. -/
def keys (d : RecoveryDb) (u : String) : WatchKeys where
  watch := d.db.watches.get? u
  runtime := d.db.runtimes.get? u
  garbled := decide (u ∈ d.garbled)
  claim := d.db.claims.get? u
  score := d.db.schedule.get? u
  active := decide (u ∈ d.db.active)
  deadline := d.db.terminal.get? u

/-- The candidate of a member of the active index. -/
def candidate (d : RecoveryDb) (nowMs : ℤ) (u : String) : RecoveryCandidate where
  watchId := u
  watch := d.db.get u
  runtime := d.db.getRuntime u
  hasMarker := d.db.schedule.contains u
  hasLiveClaim := claimIsLive (d.db.claims.get? u) nowMs

/-- `list_recovery_candidates`. -/
def listRecoveryCandidates (d : RecoveryDb) (nowMs : ℤ) : List RecoveryCandidate :=
  (d.db.active.insertionSort (· ≤ ·)).map (d.candidate nowMs)

/-- `due_schedule_markers`. -/
def dueScheduleMarkers (d : RecoveryDb) (now : Time) (horizonSeconds : ℚ) (limit : ℤ) :
    List ScheduleMarker :=
  let cutoffMs := toMs (now + timedelta horizonSeconds)
  ((d.db.schedule.rangeByScore cutoffMs).take limit.toNat).filterMap fun u =>
    match d.db.getRuntime u with
    | some runtime =>
      match runtime.windowId, runtime.scheduledFor with
      | some window, some scheduledFor => some ⟨u, window, scheduledFor⟩
      | _, _ => none
    | none => none

/-- `CLAIM_WINDOW` accepts a claim: the sidecar decodes and the script answers `OWNED`. -/
def Accepts (d : RecoveryDb) (nowMs : ℤ) (u window ownerId : String) (leaseMs : ℤ) : Prop :=
  u ∉ d.garbled ∧ ∃ watch runtime token expires,
    (d.db.claimScript u window ownerId leaseMs nowMs false).1 = some (.owned watch runtime token expires)

/-- `prune_index_member`. -/
def prune (d : RecoveryDb) (u : String) (fromAll : Bool) : RecoveryDb where
  db := d.db.pruneIndexMember u fromAll
  garbled := if fromAll then d.garbled.filter (· ≠ u) else d.garbled
  garbled_runtimes := by
    cases fromAll with
    | false => exact d.garbled_runtimes
    | true =>
      intro v hv
      have hv := d.garbled_runtimes v (List.mem_of_mem_filter hv)
      simp [Redis.pruneIndexMember, Redis.del, Dict.get?_erase, hv]
  active_nodup := by cases fromAll <;> exact d.active_nodup.erase _

/-- `expire_if_eligible`, run without another client's step in between. -/
def expire (d : RecoveryDb) {retention : Duration} (h : 0 ≤ retention) (now : Time) (u : String) :
    RecoveryDb where
  db := (d.db.expireIfEligible retention now u none false).2
  garbled := d.garbled
  garbled_runtimes v hv := d.db.expireIfEligible_runtimes h now u (d.garbled_runtimes v hv)
  active_nodup := d.db.expireIfEligible_active h now u d.active_nodup

/-- `synthesize_marker`. A call that fails changes nothing. -/
def synthesize (d : RecoveryDb) (now : Time) (u : String) (runtime : WatchRuntime) :
    Option RecoveryDb :=
  match h : (d.db.synthesizeMarker now u runtime).1 with
  | none => none
  | some false => some d
  | some true => some {
      db := (d.db.synthesizeMarker now u runtime).2
      garbled := d.garbled.filter (· ≠ u)
      garbled_runtimes := by
        rcases d.db.synthesizeMarker_cases now u runtime with ⟨hno, -⟩ | ⟨ms, fence, -, -, hdb⟩
        · exact absurd h hno
        · intro v hv
          obtain ⟨hv, hne⟩ := List.mem_filter.mp hv
          have hne : v ≠ u := by simpa using hne
          rw [hdb]
          change (d.db.runtimes.insert u runtime).get? v = none
          rw [Dict.get?_insert_ne _ _ (Ne.symm hne)]
          exact d.garbled_runtimes v hv
      active_nodup := by
        rcases d.db.synthesizeMarker_cases now u runtime with ⟨hno, -⟩ | ⟨ms, fence, -, -, hdb⟩
        · exact absurd h hno
        · rw [hdb]
          exact d.active_nodup }

/-- A database that differs in its dispatch leases only. -/
def dispatched (d : RecoveryDb) {db : Redis} (h : d.db.DispatchOnly db) : RecoveryDb where
  db := db
  garbled := d.garbled
  garbled_runtimes v hv := by
    rw [h.runtimes]
    exact d.garbled_runtimes v hv
  active_nodup := by
    rw [h.active]
    exact d.active_nodup

/-- One iteration of `CLEANUP_DUE`. -/
def cleanupOne (d : RecoveryDb) (u : String) : RecoveryDb where
  db := d.db.cleanupOne u
  garbled := if d.db.isFinished u then d.garbled.filter (· ≠ u) else d.garbled
  garbled_runtimes := by
    unfold Redis.cleanupOne
    split_ifs
    · intro v hv
      have hv := d.garbled_runtimes v (List.mem_of_mem_filter hv)
      simp [Redis.del, Dict.get?_erase, hv]
    · exact d.garbled_runtimes
  active_nodup := by
    unfold Redis.cleanupOne
    split_ifs
    · exact d.active_nodup.erase _
    · exact d.active_nodup

/-- `cleanup_due`, as far as the database goes. -/
def cleanupDue (d : RecoveryDb) (now : Time) (batchSize : ℕ) : RecoveryDb :=
  ((d.db.terminal.rangeByScore (toMs now)).take batchSize).foldl cleanupOne d

/-! ## The keys of each watch -/

theorem mem_erase_active (d : RecoveryDb) (u v : String) :
    v ∈ d.db.active.erase u ↔ v ≠ u ∧ v ∈ d.db.active := d.active_nodup.mem_erase_iff

/-- Pruning from the active set keeps the rest of a watch. -/
theorem prune_keys_self (d : RecoveryDb) (u : String) :
    (d.prune u false).keys u = { d.keys u with active := false } := by
  simp [keys, prune, Redis.pruneIndexMember, d.mem_erase_active]

/-- Pruning is about one watch. -/
theorem prune_keys_ne (d : RecoveryDb) {u v : String} (h : v ≠ u) (fromAll : Bool) :
    (d.prune u fromAll).keys v = d.keys v := by
  have hu : u ≠ v := Ne.symm h
  cases fromAll with
  | false => simp [keys, prune, Redis.pruneIndexMember, d.mem_erase_active, h]
  | true => simp [keys, prune, Redis.pruneIndexMember, Redis.del, d.mem_erase_active, Dict.get?_erase_ne,
      hu, h]

/-- Expiry is about one watch. -/
theorem expire_keys_ne (d : RecoveryDb) {retention : Duration} (hret : 0 ≤ retention) (now : Time)
    {u v : String} (h : v ≠ u) : (d.expire hret now u).keys v = d.keys v := by
  have hu : u ≠ v := Ne.symm h
  rcases d.db.expireIfEligible_cases retention now u with hdb | ⟨w, -, -, -, -, eventId, hdb⟩
  · simp [keys, expire, hdb]
  · have hpos := Redis.terminalDeadlines_pos hret now
    obtain ⟨hwatches, hclaims, hschedule, hactive, hterminal⟩ := Redis.finish_tables d.db u
      (w.ended .expired now) ((d.db.getRuntime u).map (·.finished (now + retention)))
      (terminalDeadlines retention now).1 hpos eventId
    have hrecord := congrFun (Redis.record_finish d.db u (w.ended .expired now)
      ((d.db.getRuntime u).map (·.finished (now + retention))) (terminalDeadlines retention now).1 hpos
      eventId) v
    rw [Function.update_of_ne h] at hrecord
    have hruntime := congrArg Prod.snd hrecord
    simp only [Redis.record] at hruntime
    simp [keys, expire, hdb, hwatches, hclaims, hschedule, hactive, hterminal, hruntime,
      d.mem_erase_active, Dict.get?_erase_ne, Dict.get?_insert_ne, hu, h]

/-- Expiry finishes an exhausted watch whose revision it can compare. -/
theorem expire_keys_self (d : RecoveryDb) {retention : Duration} (hret : 0 ≤ retention) (now : Time)
    {u : String} {w : Watch} (hw : d.db.get u = some w) (hactive : w.status = .active)
    (hdue : w.isExhausted now = true)
    (hover : d.db.overtaken u (casRevision (d.db.getRuntime u)) = false) :
    ((d.expire hret now u).keys u).watch = some (w.ended .expired now) ∧
      ((d.expire hret now u).keys u).deadline = some (toMs (now + retention)) := by
  have hpos := Redis.terminalDeadlines_pos hret now
  obtain ⟨eventId, hdb⟩ := Redis.expireIfEligible_applies retention hw hactive hdue hover
  obtain ⟨hwatches, -, -, -, hterminal⟩ := Redis.finish_tables d.db u (w.ended .expired now)
    ((d.db.getRuntime u).map (·.finished (now + retention))) (terminalDeadlines retention now).1 hpos
    eventId
  constructor
  · simp [keys, expire, hdb, hwatches]
  · change (d.db.expireIfEligible retention now u none false).2.terminal.get? u = _
    rw [hdb, hterminal, Dict.get?_insert_self]
    rfl

/-- What a repair that does not fail does: nothing, or it stores the sidecar and the marker. -/
theorem synthesize_cases {d d' : RecoveryDb} {now : Time} {u : String} {runtime : WatchRuntime}
    (hd : d.synthesize now u runtime = some d') :
    ((d.db.synthesizeMarker now u runtime).1 ≠ some true ∧ d' = d) ∨
    ∃ ms fence, scheduledMs runtime = some ms ∧ d'.garbled = d.garbled.filter (· ≠ u) ∧
      d'.db = { d.db.setRuntime u runtime with fence := fence, schedule := d.db.schedule.insert u ms } := by
  unfold synthesize at hd
  split at hd
  · contradiction
  · exact .inl ⟨by simp [*], (Option.some.inj hd).symm⟩
  next htrue =>
    obtain rfl := Option.some.inj hd
    rcases d.db.synthesizeMarker_cases now u runtime with ⟨hno, -⟩ | ⟨ms, fence, hms, -, hdb⟩
    · exact absurd htrue hno
    · exact .inr ⟨ms, fence, hms, rfl, hdb⟩

/-- A repair is about one watch. -/
theorem synthesize_keys_ne {d d' : RecoveryDb} {now : Time} {u v : String} {runtime : WatchRuntime}
    (hd : d.synthesize now u runtime = some d') (h : v ≠ u) : d'.keys v = d.keys v := by
  rcases synthesize_cases hd with ⟨-, rfl⟩ | ⟨ms, fence, -, hgarbled, hdb⟩
  · rfl
  · have hu : u ≠ v := Ne.symm h
    simp [keys, hgarbled, hdb, Redis.setRuntime, Dict.get?_insert_ne, hu, h]

/-- A dispatch changes the keys of no watch. -/
theorem dispatched_keys (d : RecoveryDb) {db : Redis} (h : d.db.DispatchOnly db) (u : String) :
    (d.dispatched h).keys u = d.keys u := by
  have hgarbled : (d.dispatched h).garbled = d.garbled := rfl
  have hdb : (d.dispatched h).db = db := rfl
  simp only [keys, hgarbled, hdb, h.watches, h.runtimes, h.claims, h.schedule, h.active, h.terminal]

/-- One iteration of the cleanup is about one watch. -/
theorem cleanupOne_keys_ne (d : RecoveryDb) {u v : String} (h : v ≠ u) :
    (d.cleanupOne u).keys v = d.keys v := by
  have hu : u ≠ v := Ne.symm h
  unfold keys cleanupOne Redis.cleanupOne
  dsimp only
  split_ifs
  · simp [Redis.del, d.mem_erase_active, Dict.get?_erase_ne, hu, h]
  · simp [Dict.get?_erase_ne, hu]

/-- One iteration of the cleanup only drops the cleanup entry of a watch that is not finished. -/
theorem cleanupOne_keys_self (d : RecoveryDb) {u : String}
    (h : ∀ w, (d.keys u).watch = some w → w.status = .active) :
    (d.cleanupOne u).keys u = { d.keys u with deadline := none } := by
  have hno : d.db.isFinished u = false := by
    cases hw : d.db.watches.get? u with
    | none => simp [Redis.isFinished, hw]
    | some w => simp [Redis.isFinished, hw, h w hw]
  simp [keys, cleanupOne, Redis.cleanupOne, hno]

/-- One iteration of the cleanup makes no watch active. -/
theorem cleanupOne_active (d : RecoveryDb) {u v : String} (h : (d.keys v).active = false) :
    ((d.cleanupOne u).keys v).active = false := by
  by_cases hvu : v = u
  · subst hvu
    have hv : v ∉ d.db.active := of_decide_eq_false h
    unfold keys cleanupOne Redis.cleanupOne
    dsimp only
    split_ifs
    · simp [Redis.del, d.mem_erase_active]
    · simpa using hv
  · rw [d.cleanupOne_keys_ne hvu]
    exact h

/-- The cleanup drops at most the cleanup entry of a watch that is not finished. -/
theorem cleanupDue_keys_active (d : RecoveryDb) (now : Time) (batchSize : ℕ) {u : String}
    (h : ∀ w, (d.keys u).watch = some w → w.status = .active) :
    ∃ deadline, (d.cleanupDue now batchSize).keys u = { d.keys u with deadline := deadline } := by
  unfold cleanupDue
  refine List.foldlRecOn _ cleanupOne (motive := fun d' : RecoveryDb =>
    ∃ deadline, d'.keys u = { d.keys u with deadline := deadline }) ⟨_, rfl⟩ ?_
  rintro d' ⟨deadline, hd'⟩ v -
  by_cases hv : u = v
  · subst hv
    refine ⟨none, ?_⟩
    have hactive : ∀ w, (d'.keys u).watch = some w → w.status = .active := by
      rw [hd']
      exact h
    rw [d'.cleanupOne_keys_self hactive, hd']
  · exact ⟨deadline, (d'.cleanupOne_keys_ne hv).trans hd'⟩

/-- The cleanup leaves a watch alone whose deadline lies ahead. -/
theorem cleanupDue_keys_later (d : RecoveryDb) {now : Time} (batchSize : ℕ) {u : String} {ms : ℤ}
    (h : (d.keys u).deadline = some ms) (hlater : toMs now < ms) :
    (d.cleanupDue now batchSize).keys u = d.keys u := by
  unfold cleanupDue
  refine List.foldlRecOn _ cleanupOne (motive := fun d' : RecoveryDb => d'.keys u = d.keys u) rfl ?_
  intro d' hd' v hv
  have hne : u ≠ v := by
    rintro rfl
    obtain ⟨ms', hms', hle⟩ := (Dict.mem_rangeByScore _).mp (List.mem_of_mem_take hv)
    have hsame : some ms = some ms' := h.symm.trans hms'
    have := Option.some.inj hsame
    omega
  rw [d'.cleanupOne_keys_ne hne, hd']

/-- The cleanup makes no watch active. -/
theorem cleanupDue_active (d : RecoveryDb) (now : Time) (batchSize : ℕ) {u : String}
    (h : (d.keys u).active = false) : ((d.cleanupDue now batchSize).keys u).active = false := by
  unfold cleanupDue
  refine List.foldlRecOn _ cleanupOne (motive := fun d' : RecoveryDb => (d'.keys u).active = false) h ?_
  exact fun d' hd' v _ => d'.cleanupOne_active hd'

end RecoveryDb

end Dibs
