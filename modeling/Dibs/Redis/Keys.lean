import Dibs.Models.Documents
import Dibs.Redis.Rejections

/-!
# The names of the Redis keys

The key builders of `backend/db/repositories/watches.py` join ids with colons under one name in front, and an id
comes straight from the path of a request. The names of the watches that the service creates are told apart; a
caller can send other ids, and for some of them the key of the document is the key of something else
(`keyScheme_iff`).
-/

namespace Dibs

/-! ## Names -/

/-- `KEY_PREFIX`. -/
def watchKeyPrefix : String := "dibs:watch"

/-- The keys of the repository and the lock of recovery, by family. -/
inductive RedisName
  | watch (watchId : String)
  | runtime (watchId : String)
  | fence (watchId : String)
  | claim (watchId : String)
  | dispatchFence (watchId : String)
  | dispatch (watchId windowHash : String)
  | all
  | active
  | schedule
  | terminal
  | events
  | leader
deriving DecidableEq

namespace RedisName

/-- `_key`, `_runtime_key`, `_fence_key`, `_claim_key`, `_dispatch_fence_key`, `_dispatch_key`, and the constants. -/
def name : RedisName → String
  | .watch u => watchKeyPrefix ++ ":" ++ u
  | .runtime u => watchKeyPrefix ++ ":" ++ u ++ ":runtime"
  | .fence u => watchKeyPrefix ++ ":" ++ u ++ ":fence"
  | .claim u => watchKeyPrefix ++ ":" ++ u ++ ":claim"
  | .dispatchFence u => watchKeyPrefix ++ ":" ++ u ++ ":dispfence"
  | .dispatch u windowHash => watchKeyPrefix ++ ":" ++ u ++ ":dispatch:" ++ windowHash
  | .all => "dibs:watches"
  | .active => "dibs:watches:active"
  | .schedule => "dibs:watches:schedule"
  | .terminal => "dibs:watches:terminal"
  | .events => "dibs:watch:events"
  | .leader => "dibs:recovery:leader"

/-- The watch that a key is about, and what its name has behind the id. -/
def parts : RedisName → Option (String × String)
  | .watch u => some (u, "")
  | .runtime u => some (u, ":runtime")
  | .fence u => some (u, ":fence")
  | .claim u => some (u, ":claim")
  | .dispatchFence u => some (u, ":dispfence")
  | .dispatch u windowHash => some (u, ":dispatch:" ++ windowHash)
  | .all | .active | .schedule | .terminal | .events | .leader => none

/-- The keys that are about no watch. -/
def shared : List RedisName := [.all, .active, .schedule, .terminal, .events, .leader]

/-- The keys about one watch and one window. -/
def ofWatch (u windowHash : String) : List RedisName :=
  [.watch u, .runtime u, .fence u, .claim u, .dispatchFence u, .dispatch u windowHash]

theorem name_of_parts {k : RedisName} {u s : String} (h : k.parts = some (u, s)) :
    k.name = "dibs:watch:" ++ (u ++ s) := by
  have hprefix : watchKeyPrefix ++ ":" = "dibs:watch:" := by decide
  cases k <;> simp only [parts, reduceCtorEq, Option.some.injEq, Prod.mk.injEq] at h <;>
    obtain ⟨rfl, rfl⟩ := h <;> simp only [name, hprefix, String.append_assoc, String.append_empty]

/-- What stands behind the id is nothing, or begins with a colon. -/
theorem parts_colon {k : RedisName} {u s : String} (h : k.parts = some (u, s)) :
    s = "" ∨ ∃ l, s.toList = ':' :: l := by
  cases k <;> simp only [parts, reduceCtorEq, Option.some.injEq, Prod.mk.injEq] at h <;> obtain ⟨-, rfl⟩ := h
  case watch => exact .inl rfl
  case dispatch => exact .inr ⟨_, by rw [String.toList_append]; rfl⟩
  all_goals exact .inr ⟨_, rfl⟩

/-- The name of a dispatch lease is told apart by the sixth character behind the id. -/
theorem dispatch_append_ne {s : String} (h : s.toList.take 6 ≠ [':', 'd', 'i', 's', 'p', 'a']) (windowHash : String) :
    ":dispatch:" ++ windowHash ≠ s := by
  rintro rfl
  refine h ?_
  rw [String.toList_append]
  rfl

/-- A key is determined by its watch and by what its name has behind the id. -/
theorem parts_inj {k k' : RedisName} {p : String × String} (h : k.parts = some p) (h' : k'.parts = some p) :
    k = k' := by
  have hother : ∀ s ∈ ["", ":runtime", ":fence", ":claim", ":dispfence"],
      ∀ windowHash, ":dispatch:" ++ windowHash ≠ s :=
    fun s hs => dispatch_append_ne (s := s) (by revert s; decide)
  rw [← h'] at h
  cases k <;> cases k' <;> simp only [parts, reduceCtorEq, Option.some.injEq, Prod.mk.injEq] at h h' <;>
    obtain ⟨rfl, hs⟩ := h
  case dispatch.dispatch => rw [(String.append_right_inj _).mp hs]
  all_goals first
    | rfl
    | exact absurd hs (by decide)
    | exact absurd hs (hother _ (by decide) _)
    | exact absurd hs.symm (hother _ (by decide) _)

/-- An id without a colon ends at the first colon of what is written behind it. -/
theorem takeWhile_parts {k : RedisName} {u s : String} (h : k.parts = some (u, s)) (hu : ':' ∉ u.toList) :
    (u ++ s).toList.takeWhile (· ≠ ':') = u.toList := by
  have hall : ∀ c ∈ u.toList, decide (c ≠ ':') = true := fun c hc => by
    simpa using fun h : c = ':' => hu (h ▸ hc)
  rw [String.toList_append, List.takeWhile_append_of_pos hall]
  obtain rfl | ⟨l, hl⟩ := parts_colon h
  · simp
  · simp [hl]

/-- Keys about watches whose ids have no colon are told apart by their names. -/
theorem name_inj {k k' : RedisName} {u v s t : String} (hk : k.parts = some (u, s)) (hk' : k'.parts = some (v, t))
    (hu : ':' ∉ u.toList) (hv : ':' ∉ v.toList) (h : k.name = k'.name) : k = k' := by
  rw [name_of_parts hk, name_of_parts hk', String.append_right_inj] at h
  have hid := takeWhile_parts hk hu
  rw [h, takeWhile_parts hk' hv] at hid
  obtain rfl := String.toList_inj.mp hid
  rw [String.append_right_inj] at h
  exact parts_inj hk (h ▸ hk')

/-- No key that is about no watch has a name that begins as those about watches do, but the event set. -/
theorem eq_events_of_name {k : RedisName} (hk : k ∈ shared) {x : String} (h : "dibs:watch:" ++ x = k.name) :
    x = "events" := by
  have hevents : RedisName.events.name = "dibs:watch:" ++ "events" := by decide
  have hother : ∀ k ∈ shared, k ≠ .events → k.name.toList.take 11 ≠ "dibs:watch:".toList := by decide
  by_cases hk' : k = .events
  · rw [hk', hevents, String.append_right_inj] at h
    exact h
  · refine absurd ?_ (hother k hk hk')
    rw [← h, String.toList_append]
    rfl

end RedisName

/-! ## Ids -/

/-- What a key builder appends to an id. -/
def IsEnding (s : String) : Prop :=
  s ∈ [":runtime", ":fence", ":claim", ":dispfence"] ∨ ∃ windowId, s = ":dispatch:" ++ dispatchWindowHash windowId

/-- An id whose document key is another key: that of the event set, or one about the watch that the id without its
end names. -/
def Clashes (u : String) : Prop := u = "events" ∨ ∃ v s, v ≠ "" ∧ u = v ++ s ∧ IsEnding s

/-- The document key of `u` is no other key, of whatever watch. -/
structure KeysApart (u : String) : Prop where
  others : ∀ v windowId, v ≠ "" → '/' ∉ v.toList →
    ∀ k ∈ [RedisName.runtime v, .fence v, .claim v, .dispatchFence v, .dispatch v (dispatchWindowHash windowId)],
      (RedisName.watch u).name ≠ k.name
  shared : ∀ k ∈ RedisName.shared, (RedisName.watch u).name ≠ k.name
  /-- Two families' keys of one watch differ. -/
  own : ∀ windowId,
    ((RedisName.ofWatch u (dispatchWindowHash windowId) ++ RedisName.shared).map RedisName.name).Nodup

open RedisName in
/-- The keys of an id are apart from all others exactly when it does not clash. -/
theorem keysApart_iff {u : String} (hslash : '/' ∉ u.toList) : KeysApart u ↔ ¬ Clashes u := by
  have hname : (RedisName.watch u).name = "dibs:watch:" ++ u := by
    rw [name_of_parts (k := .watch u) rfl, String.append_empty]
  constructor
  · rintro h (rfl | ⟨v, s, hv, rfl, hs⟩)
    · exact h.shared .events (by decide) (by decide)
    · have hslash' : '/' ∉ v.toList := by
        rw [String.toList_append] at hslash
        exact fun hmem => hslash (List.mem_append_left _ hmem)
      have hmeets : ∀ (k : RedisName) (windowId : String), k.parts = some (v, s) →
          k ∈ [RedisName.runtime v, .fence v, .claim v, .dispatchFence v,
            .dispatch v (dispatchWindowHash windowId)] → False := by
        intro k windowId hk hmem
        refine h.others v windowId hv hslash' k hmem ?_
        rw [hname, name_of_parts hk]
      rcases hs with hs | ⟨windowId, rfl⟩
      · simp only [List.mem_cons, List.not_mem_nil, or_false] at hs
        rcases hs with rfl | rfl | rfl | rfl
        · exact hmeets (.runtime v) "" rfl (by simp)
        · exact hmeets (.fence v) "" rfl (by simp)
        · exact hmeets (.claim v) "" rfl (by simp)
        · exact hmeets (.dispatchFence v) "" rfl (by simp)
      · exact hmeets (.dispatch v (dispatchWindowHash windowId)) windowId rfl (by simp)
  · intro h
    obtain ⟨hevents, hends⟩ := not_or.mp h
    refine ⟨fun v windowId hv hslash' k hk heq => ?_, fun k hk heq => ?_, fun windowId => ?_⟩
    · obtain ⟨s, hparts, hs⟩ : ∃ s, k.parts = some (v, s) ∧ IsEnding s := by
        simp only [List.mem_cons, List.not_mem_nil, or_false] at hk
        rcases hk with rfl | rfl | rfl | rfl | rfl
        all_goals first
          | exact ⟨_, rfl, .inl (by decide)⟩
          | exact ⟨_, rfl, .inr ⟨_, rfl⟩⟩
      rw [hname, name_of_parts hparts, String.append_right_inj] at heq
      exact hends ⟨v, s, hv, heq, hs⟩
    · rw [hname] at heq
      exact hevents (eq_events_of_name hk heq)
    · have hown : ∀ k ∈ ofWatch u (dispatchWindowHash windowId), ∃ s, k.parts = some (u, s) := by
        simp [ofWatch, parts]
      have hmixed : ∀ k ∈ ofWatch u (dispatchWindowHash windowId), ∀ k' ∈ RedisName.shared,
          k.name ≠ k'.name := by
        intro k hk k' hk' heq
        obtain ⟨s, hs⟩ := hown k hk
        rw [name_of_parts hs] at heq
        have hid := eq_events_of_name hk' heq
        obtain rfl | ⟨l, hl⟩ := parts_colon hs
        · exact hevents (by simpa using hid)
        · have hcolon : ':' ∈ (u ++ s).toList := by
            rw [String.toList_append, hl]
            simp
          rw [hid] at hcolon
          exact absurd hcolon (by decide)
      have hshared : ∀ k ∈ RedisName.shared, ∀ k' ∈ RedisName.shared, k.name = k'.name → k = k' := by decide
      refine List.Nodup.map_on ?_ ?_
      · intro k hk k' hk' heq
        rcases List.mem_append.mp hk with hk | hk <;> rcases List.mem_append.mp hk' with hk' | hk'
        · obtain ⟨s, hs⟩ := hown k hk
          obtain ⟨t, ht⟩ := hown k' hk'
          rw [name_of_parts hs, name_of_parts ht, String.append_right_inj, String.append_right_inj] at heq
          exact parts_inj hs (heq ▸ ht)
        · exact absurd heq (hmixed k hk k' hk')
        · exact absurd heq.symm (hmixed k' hk' k hk)
        · exact hshared k hk k' hk' heq
      · simp [ofWatch, RedisName.shared]

/-! ## Reading by name -/

/-- What a key holds: a text, or a set or sorted set that is not empty. -/
inductive RedisValue
  | text (raw : String)
  | collection

/-- `result.watch`. -/
def TransitionResult.watch : TransitionResult → Option Watch
  | .applied watch _ _ | .noop watch | .notEligible watch => some watch
  | .fenced | .unknown => none

/-- The error of a command on a key of another type. -/
inductive WrongType
  | wrongType

namespace Redis

/-- The keys of one family, with the texts that they hold. -/
def texts {α β : Type} (name : α → RedisName) (write : β → String) (entries : List (α × β)) :
    List (RedisName × RedisValue) :=
  entries.map fun e => (name e.1, .text (write e.2))

/-- A set or a sorted set. Without members it is no key. -/
def collected (name : RedisName) (vacant : Bool) : List (RedisName × RedisValue) :=
  if vacant then [] else [(name, .collection)]

/-- The keys that the database has, with the lock of recovery. -/
def contents (db : Redis) (leader : Option String) : List (RedisName × RedisValue) :=
  texts .watch Watch.modelDumpJson db.watches.entries ++
  texts .runtime WatchRuntime.modelDumpJson db.runtimes.entries ++
  texts .fence toString db.fence.entries ++
  texts .claim id db.claims.entries ++
  texts .dispatchFence toString db.dispatchFence.entries ++
  texts (fun k => .dispatch k.1 k.2) id db.dispatches.entries ++
  collected .all db.all.isEmpty ++
  collected .active db.active.isEmpty ++
  collected .schedule db.schedule.entries.isEmpty ++
  collected .terminal db.terminal.entries.isEmpty ++
  collected .events db.events.isEmpty ++
  texts (fun _ => .leader) id (leader.toList.map fun lease => ((), lease))

/-- `GET`. -/
def getRaw (db : Redis) (leader : Option String) (key : String) : Except WrongType (Option String) :=
  match (db.contents leader).find? fun e => e.1.name = key with
  | none => .ok none
  | some (_, .collection) => .error .wrongType
  | some (_, .text raw) => .ok (some raw)

/-- `_decode`. -/
def decode (watchId : String) (raw : Option String) : Option Watch :=
  (raw.bind Watch.modelValidateJson).filter fun watch => watch.watchId = watchId

/-- `get`, by the name of the key. -/
def getNamed (db : Redis) (leader : Option String) (watchId : String) : Except WrongType (Option Watch) :=
  (db.getRaw leader (RedisName.watch watchId).name).map (decode watchId)

/-- The keys that `cancel_if_active` names: the document first, and the rest where it reads an active watch. -/
def cancelNames (db : Redis) (leader : Option String) (watchId : String) : List RedisName :=
  match db.getNamed leader watchId with
  | .ok (some watch) =>
    if watch.status.isTerminal then [.watch watchId]
    else [.watch watchId, .runtime watchId, .claim watchId, .active, .schedule, .terminal]
  | _ => [.watch watchId]

/-- `cancel_if_active`: it raises if `get` does, and ends where `get` finds nothing. -/
def cancelNamed (db : Redis) (leader : Option String) (retention : Duration) (now : Time) (watchId : String) :
    Except WrongType (TransitionResult × Redis) :=
  match db.getNamed leader watchId with
  | .error e => .error e
  | .ok none => .ok (.unknown, db)
  | .ok (some _) => .ok (db.cancelIfActive retention now watchId)

/-- `get` and `cancel_if_active` of `u` meet no key of another family, and they know the watch that is stored under
`u` or none. -/
structure ReadsOwn (db : Redis) (leader : Option String) (u : String) : Prop where
  get : db.getNamed leader u = .ok (decode u ((db.watches.get? u).map Watch.modelDumpJson))
  stored : ∀ w, db.watches.get? u = some w → w.watchId = u → w.Valid → w.Dated →
    db.getNamed leader u = .ok (some w)
  names : ∀ k ∈ db.cancelNames leader u, ∀ e ∈ db.contents leader, e.1.name = k.name → e.1 = k
  cancel : ∀ retention now, ∃ out, db.cancelNamed leader retention now u = .ok out ∧
    (∀ w ∈ out.1.watch, w.watchId = u) ∧ (db.watches.get? u = none → out = (.unknown, db))

end Redis

/-! ## Runs -/

/-- An id that `WatchService.create` draws: `watch_` and the digits of a `uuid4().hex`. -/
def IsWatchId (u : String) : Prop :=
  ∃ hex : String, hex.length = 32 ∧ (∀ c ∈ hex.toList, c ∈ "0123456789abcdef".toList) ∧ u = "watch_" ++ hex

/-- `save`. -/
def Redis.save (db : Redis) (watch : Watch) : Redis :=
  let db := db.setWatch watch.watchId watch
  { db with
    all := db.all.insert watch.watchId
    active := if watch.status = .active then db.active.insert watch.watchId else db.active.erase watch.watchId }

/-- The ids under which a step creates or deletes are the service's own. The ids of the other calls are any: where
no watch is stored under them, the calls write nothing. -/
def CallLabel.OfService : CallLabel → Prop
  | .call op => ∀ u ∈ op.creates, IsWatchId u
  | .delete u | .prune u _ => IsWatchId u
  | _ => True

/-- What can happen next. -/
inductive KeyLabel
  | call (label : CallLabel)
  | save (watch : Watch)

/-- The calls of any number of clients, and the saves of documents. -/
def keyMachine : Machine CallSys KeyLabel where
  init := callMachine.init
  allowed s
    | .call label => callMachine.allowed s label ∧ label.OfService
    | .save watch => IsWatchId watch.watchId
  exec
    | .call label, s => callMachine.exec label s
    | .save watch, s => { s with db := s.db.save watch }

/-! ## Whose keys there are -/

/-- Every key of a dictionary has a property. -/
def Dict.Within {κ α : Type} [DecidableEq κ] (d : Dict κ α) (P : κ → Prop) : Prop :=
  ∀ k v, d.get? k = some v → P k

namespace Dict.Within

variable {κ α : Type} [DecidableEq κ] {d : Dict κ α} {P : κ → Prop}

theorem empty : (Dict.empty : Dict κ α).Within P := fun k v h => by
  rw [get?_empty] at h
  contradiction

theorem insert (h : d.Within P) {k : κ} (hk : P k) (v : α) : (d.insert k v).Within P := fun k' v' hget => by
  rw [get?_insert] at hget
  split_ifs at hget with heq
  · exact heq ▸ hk
  · exact h k' v' hget

theorem erase (h : d.Within P) (k : κ) : (d.erase k).Within P := fun k' v' hget => by
  rw [get?_erase] at hget
  split_ifs at hget
  exact h k' v' hget

end Dict.Within

namespace Redis

/-- Every key about a watch is about one whose id has a property, and every dispatch lease is about a window. -/
structure Over (db : Redis) (P : String → Prop) : Prop where
  watches : db.watches.Within P
  runtimes : db.runtimes.Within P
  fence : db.fence.Within P
  claims : db.claims.Within P
  dispatchFence : db.dispatchFence.Within P
  dispatches : db.dispatches.Within fun k => P k.1 ∧ ∃ windowId, k.2 = dispatchWindowHash windowId

namespace Over

variable {db : Redis} {P : String → Prop} {u : String}

theorem empty : Redis.empty.Over P := ⟨.empty, .empty, .empty, .empty, .empty, .empty⟩

theorem setWatch (h : db.Over P) (hu : P u) (w : Watch) : (db.setWatch u w).Over P :=
  { h with watches := h.watches.insert hu w }

theorem setRuntime (h : db.Over P) (hu : P u) (r : WatchRuntime) : (db.setRuntime u r).Over P :=
  { h with runtimes := h.runtimes.insert hu r }

theorem setClaim (h : db.Over P) (hu : P u) (v : String) (ms : ℤ) : (db.setClaim u v ms).Over P :=
  { h with claims := h.claims.insert hu v }

theorem setDispatch (h : db.Over P) (hu : P u) (windowId v : String) (ms : ℤ) :
    (db.setDispatch u (dispatchWindowHash windowId) v ms).Over P :=
  { h with dispatches := h.dispatches.insert (k := (u, dispatchWindowHash windowId)) ⟨hu, windowId, rfl⟩ v }

theorem setFence (h : db.Over P) (hu : P u) (n : ℕ) : { db with fence := db.fence.insert u n }.Over P :=
  { h with fence := h.fence.insert hu n }

theorem setDispatchFence (h : db.Over P) (hu : P u) (n : ℕ) :
    { db with dispatchFence := db.dispatchFence.insert u n }.Over P :=
  { h with dispatchFence := h.dispatchFence.insert hu n }

/-- The indexes and the times to live are about no key. -/
theorem setIndexes (h : db.Over P) (all active events : List String) (schedule terminal : Dict String ℤ)
    (ttl : Dict RedisKey ℤ) :
    { db with
      all := all, active := active, events := events, schedule := schedule, terminal := terminal, ttl := ttl }.Over P :=
  { h with }

theorem del (h : db.Over P) (k : RedisKey) : (db.del k).Over P := by
  cases k with
  | watch u => exact { h with watches := h.watches.erase u }
  | runtime u => exact { h with runtimes := h.runtimes.erase u }
  | claim u => exact { h with claims := h.claims.erase u }
  | dispatch u windowHash => exact { h with dispatches := h.dispatches.erase (u, windowHash) }

theorem pexpire (h : db.Over P) (k : RedisKey) (ms : ℤ) : (db.pexpire k ms).Over P := by
  unfold Redis.pexpire
  split_ifs
  · exact h
  · exact h.del k
  · exact { h with }

theorem finish (h : db.Over P) (hu : P u) (w : Watch) (r : Option WatchRuntime) (ms ttl : ℤ)
    (eventId : Option String) : (db.finish u w r ms ttl eventId).Over P := by
  have hset := h.setWatch hu w
  unfold Redis.finish
  refine .pexpire (.pexpire (.setIndexes (.del ?_ _) _ _ _ _ _ _) _ _) _ _
  split
  · exact hset
  · exact hset.setRuntime hu _
  · exact hset.del _

/-- A document is stored under the id of the watch, with its sidecar and its fence. -/
theorem create (h : db.Over P) {w : Watch} (hu : P w.watchId) (r : WatchRuntime) : (db.create w r).2.Over P := by
  unfold Redis.create createWithSchedule
  split
  · exact h
  · exact .setIndexes (.setFence ((h.setWatch hu w).setRuntime hu r) hu 0) _ _ _ _ _ _

theorem save (h : db.Over P) {w : Watch} (hu : P w.watchId) : (db.save w).Over P :=
  .setIndexes (h.setWatch hu w) _ _ _ _ _ _

theorem claimWindow (h : db.Over P) (now : Time) (u windowId ownerId : String) (lease : Duration)
    (ignoreSchedule : Bool) : (db.claimWindow now u windowId ownerId lease ignoreSchedule).2.Over P := by
  unfold Redis.claimWindow claimScript
  dsimp only
  split
  next => exact h
  next w hw =>
    have hu := h.watches u w hw
    repeat' split
    all_goals first
      | exact h
      | exact h.setFence hu _
      | exact (h.setFence hu _).setClaim hu _ _

theorem beginBooking (h : db.Over P) (now : Time) (claim : WindowClaim) :
    (db.beginBooking now claim).2.Over P := by
  unfold Redis.beginBooking beginScript
  dsimp only
  split
  next => exact h
  next w hw =>
    have hu := h.watches _ w hw
    repeat' split
    all_goals first
      | exact h
      | exact h.setRuntime hu _

theorem commitWindow (h : db.Over P) (retention : Duration) (now : Time) (claim : WindowClaim)
    (newWatch : Watch) (newRuntime : WatchRuntime) :
    (db.commitWindow retention now claim newWatch newRuntime).2.Over P := by
  unfold Redis.commitWindow commitScript
  dsimp only
  split
  next => exact h
  next w hw =>
    have hu := h.watches _ w hw
    have hstored := ((h.setWatch hu newWatch).setRuntime hu
      (storedRuntime retention now claim newWatch newRuntime)).del (.claim claim.watch.watchId)
    repeat' split
    all_goals first
      | exact h
      | exact .setIndexes hstored _ _ _ _ _ _
      | exact .pexpire (.pexpire (.setIndexes hstored _ _ _ _ _ _) _ _) _ _

theorem cancelScript (h : db.Over P) (u cas : String) (mode : CancelMode) : (db.cancelScript u cas mode).2.Over P := by
  unfold Redis.cancelScript
  split
  next => exact h
  next w hw =>
    have hu := h.watches u w hw
    repeat' split
    all_goals first
      | exact h
      | exact h.setRuntime hu _
      | exact h.finish hu _ _ _ _ _

theorem expireScript (h : db.Over P) (u cas : String) (newWatch : Watch) (newRuntime : Option WatchRuntime)
    (eventId : Option String) (ms ttl : ℤ) :
    (db.expireScript u cas newWatch newRuntime eventId ms ttl).2.Over P := by
  unfold Redis.expireScript
  split
  next => exact h
  next w hw =>
    have hu := h.watches u w hw
    repeat' split
    all_goals first
      | exact h
      | exact h.finish hu _ _ _ _ _

theorem releaseClaim (h : db.Over P) (claim : WindowClaim) : (db.releaseClaim claim).2.Over P := by
  unfold Redis.releaseClaim releaseScript
  repeat' split
  all_goals first
    | exact h
    | exact h.del (.claim _)

theorem claimDispatch (h : db.Over P) (now : Time) (marker : ScheduleMarker) (ownerId : String)
    (lease : Duration) : (db.claimDispatch now marker ownerId lease).2.Over P := by
  unfold Redis.claimDispatch claimDispatchScript
  dsimp only
  split
  next => exact h
  next w hw =>
    have hu := h.watches _ w hw
    repeat' split
    all_goals first
      | exact h
      | exact h.setDispatchFence hu _
      | exact (h.setDispatchFence hu _).setDispatch hu _ _ _

/-- A lease that is marked is there. -/
theorem markDispatched (h : db.Over P) (now : Time) (claim : DispatchClaim) (redispatchAfter : Time) :
    (db.markDispatched now claim redispatchAfter).2.Over P := by
  unfold Redis.markDispatched markDispatchedScript
  split
  next => exact h
  next held hheld =>
    have hu := (h.dispatches _ held hheld).1
    repeat' split
    all_goals first
      | exact h
      | exact h.setDispatch hu _ _ _

theorem releaseDispatch (h : db.Over P) (claim : DispatchClaim) : (db.releaseDispatch claim).2.Over P := by
  unfold Redis.releaseDispatch releaseDispatchScript
  repeat' split
  all_goals first
    | exact h
    | exact h.del (.dispatch _ _)

theorem synthesizeMarker (h : db.Over P) (now : Time) (u : String) (runtime : WatchRuntime) :
    (db.synthesizeMarker now u runtime).2.Over P := by
  unfold Redis.synthesizeMarker synthesizeScript
  split
  next =>
    split
    next => exact h
    next w hw =>
      have hu := h.watches u w hw
      have hset := h.setRuntime hu runtime
      have hfence : (if db.fence.contains u then db.fence else db.fence.insert u 0).Within P := by
        split
        · exact h.fence
        · exact h.fence.insert hu 0
      repeat' split
      all_goals first
        | exact h
        | exact { hset with fence := hfence }
  next => exact h

theorem delete (h : db.Over P) (u : String) : (db.delete u).2.Over P :=
  have hdel := ((h.del (.watch u)).del (.runtime u)).del (.claim u)
  { hdel with fence := hdel.fence.erase u }

theorem pruneIndexMember (h : db.Over P) (u : String) (fromAll : Bool) : (db.pruneIndexMember u fromAll).Over P := by
  have hactive : { db with active := db.active.erase u }.Over P := { h with }
  have hdel := (hactive.del (.runtime u)).del (.claim u)
  unfold Redis.pruneIndexMember
  dsimp only
  split
  · exact { hdel with fence := hdel.fence.erase u }
  · exact hactive

theorem cleanupOne (h : db.Over P) (u : String) : (db.cleanupOne u).Over P := by
  have hdel := ((h.del (.watch u)).del (.runtime u)).del (.claim u)
  unfold Redis.cleanupOne
  dsimp only
  split
  · exact { hdel with fence := hdel.fence.erase u }
  · exact { h with }

theorem cleanupDue (h : db.Over P) (now : Time) (batchSize : ℤ) : (db.cleanupDue now batchSize).2.Over P := by
  rw [cleanupDue_snd]
  have hloop : ∀ (batch : List String) (db : Redis), db.Over P → (batch.foldl Redis.cleanupOne db).Over P := by
    intro batch
    induction batch with
    | nil => exact fun _ h => h
    | cons u batch ih => exact fun db h => ih _ (h.cleanupOne u)
  exact hloop _ db h

/-- One call, under ids that have the property where it creates a watch. -/
theorem call (h : db.Over P) (retention : Duration) (now : Time) {op : Op} (hop : op.OneTrip)
    (hcreates : ∀ u ∈ op.creates, P u) : (db.call retention now op).2.Over P := by
  cases op with
  | create watch runtime => exact h.create (hcreates _ rfl) runtime
  | claim u windowId ownerId lease ignoreSchedule => exact h.claimWindow now u windowId ownerId lease ignoreSchedule
  | begin claim => exact h.beginBooking now claim
  | commit claim newWatch newRuntime => exact h.commitWindow retention now claim newWatch newRuntime
  | cancel | expire => exact hop.elim
  | release claim => exact h.releaseClaim claim
  | claimDispatch marker ownerId lease => exact h.claimDispatch now marker ownerId lease
  | markDispatched claim redispatchAfter => exact h.markDispatched now claim redispatchAfter
  | releaseDispatch claim => exact h.releaseDispatch claim
  | synthesize u runtime => exact h.synthesizeMarker now u runtime
  | cleanup now batchSize => exact h.cleanupDue now batchSize

/-- One round trip of a cancellation or an expiry. -/
theorem step (h : db.Over P) (client : Client) (retention : Duration) (now : Time) :
    (client.step retention now db).db.Over P := by
  cases client with
  | idle | answered | cancelRead => exact h
  | cancelStart u attempts =>
    simp only [Client.step]
    repeat' split
    all_goals exact h
  | cancelSend u attempts watch runtime moment seen => exact h.cancelScript u _ _
  | expireStart u expected force =>
    simp only [Client.step]
    repeat' split
    all_goals exact h
  | expireRead u expected force watch =>
    simp only [Client.step]
    split <;> exact h
  | expireSend u watch runtime request seen => exact h.expireScript u _ _ _ _ _ _

end Over

end Redis

/-- Every key about a watch is about one that the service has created. -/
theorem over_of_reach {s : CallSys} (hs : keyMachine.Reach s) : s.db.Over IsWatchId := by
  refine hs.invariant (P := fun s => s.db.Over IsWatchId) (fun s h0 => ?_) fun s i _ h hallowed => ?_
  · rw [h0.2.1]
    exact .empty
  · cases i with
    | save watch => exact h.save hallowed
    | call label =>
      obtain ⟨hallowed, hservice⟩ := hallowed
      cases label with
      | clock | cancel | expire => exact h
      | elapse ms => exact .setIndexes h _ _ _ _ _ _
      | fire key => exact h.del key
      | call op => exact h.call _ _ hallowed hservice
      | delete u => exact h.delete u
      | prune u fromAll => exact h.pruneIndexMember u fromAll
      | step k => exact h.step _ _ _

/-! ## What a reader meets -/

theorem IsWatchId.colon {u : String} (h : IsWatchId u) : ':' ∉ u.toList := by
  obtain ⟨hex, -, hdigits, rfl⟩ := h
  rw [String.toList_append, List.mem_append]
  rintro (hmem | hmem)
  · exact absurd hmem (by decide)
  · exact absurd (hdigits _ hmem) (by decide)

theorem IsWatchId.ne_events {u : String} (h : IsWatchId u) : u ≠ "events" := by
  obtain ⟨hex, -, -, rfl⟩ := h
  intro heq
  have hlists := congrArg (fun s => s.toList.take 1) heq
  simp only [String.toList_append] at hlists
  exact absurd (show ['w'] = ['e'] from hlists) (by decide)

theorem IsWatchId.ne_empty {u : String} (h : IsWatchId u) : u ≠ "" := by
  obtain ⟨hex, -, -, rfl⟩ := h
  simp

namespace RedisName

/-- A key about a watch that the service has created, or about none. -/
def Issued (k : RedisName) : Prop := k ∈ shared ∨ ∃ v s, k.parts = some (v, s) ∧ IsWatchId v

/-- A name about a watch that the service has created is no name about none. -/
theorem name_ne_shared {k k' : RedisName} (hk : k ∈ shared) {v s : String} (hk' : k'.parts = some (v, s))
    (hv : IsWatchId v) : k'.name ≠ k.name := by
  intro heq
  rw [name_of_parts hk'] at heq
  have hid := eq_events_of_name hk heq
  obtain rfl | ⟨l, hl⟩ := parts_colon hk'
  · exact hv.ne_events (by simpa using hid)
  · have hcolon : ':' ∈ (v ++ s).toList := by
      rw [String.toList_append, hl]
      simp
    rw [hid] at hcolon
    exact absurd hcolon (by decide)

/-- The service's own keys are told apart by their names. -/
theorem Issued.name_inj {k k' : RedisName} (h : k.Issued) (h' : k'.Issued) (heq : k.name = k'.name) : k = k' := by
  have hshared : ∀ k ∈ shared, ∀ k' ∈ shared, k.name = k'.name → k = k' := by decide
  rcases h with h | ⟨u, s, hk, hu⟩ <;> rcases h' with h' | ⟨v, t, hk', hv⟩
  · exact hshared k h k' h' heq
  · exact absurd heq.symm (name_ne_shared h hk' hv)
  · exact absurd heq (name_ne_shared h' hk hu)
  · exact RedisName.name_inj hk hk' hu.colon hv.colon heq

end RedisName

namespace Redis

variable {db : Redis} {leader : Option String} {u : String}

theorem mem_texts {α β : Type} {name : α → RedisName} {write : β → String} {entries : List (α × β)}
    {e : RedisName × RedisValue} :
    e ∈ texts name write entries ↔ ∃ k v, (k, v) ∈ entries ∧ e = (name k, .text (write v)) := by
  simp [texts, eq_comm]

theorem mem_collected {name : RedisName} {vacant : Bool} {e : RedisName × RedisValue} :
    e ∈ collected name vacant ↔ vacant = false ∧ e = (name, .collection) := by
  cases vacant <;> simp [collected]

/-- The keys that there are belong to watches of the service or to none. -/
theorem Over.contents (h : db.Over IsWatchId) {e : RedisName × RedisValue} (he : e ∈ db.contents leader) :
    e.1 ∈ RedisName.shared ∨ ∃ v s, e.1.parts = some (v, s) ∧ IsWatchId v ∧ (s = "" ∨ IsEnding s) := by
  simp only [Redis.contents, List.mem_append, mem_texts, mem_collected, ← Dict.get?_eq_some_iff] at he
  rcases he with ((((((((((he | he) | he) | he) | he) | he) | he) | he) | he) | he) | he) | he
  · obtain ⟨v, w, hw, rfl⟩ := he
    exact .inr ⟨v, "", rfl, h.watches v w hw, .inl rfl⟩
  · obtain ⟨v, r, hr, rfl⟩ := he
    exact .inr ⟨v, _, rfl, h.runtimes v r hr, .inr (.inl (by decide))⟩
  · obtain ⟨v, n, hn, rfl⟩ := he
    exact .inr ⟨v, _, rfl, h.fence v n hn, .inr (.inl (by decide))⟩
  · obtain ⟨v, claim, hclaim, rfl⟩ := he
    exact .inr ⟨v, _, rfl, h.claims v claim hclaim, .inr (.inl (by decide))⟩
  · obtain ⟨v, n, hn, rfl⟩ := he
    exact .inr ⟨v, _, rfl, h.dispatchFence v n hn, .inr (.inl (by decide))⟩
  · obtain ⟨⟨v, windowHash⟩, lease, hlease, rfl⟩ := he
    obtain ⟨hv, windowId, hhash⟩ := h.dispatches _ lease hlease
    exact .inr ⟨v, ":dispatch:" ++ windowHash, rfl, hv, .inr (.inr ⟨windowId, congrArg _ hhash⟩)⟩
  · exact .inl (by rw [he.2]; decide)
  · exact .inl (by rw [he.2]; decide)
  · exact .inl (by rw [he.2]; decide)
  · exact .inl (by rw [he.2]; decide)
  · exact .inl (by rw [he.2]; decide)
  · obtain ⟨_, lease, -, rfl⟩ := he
    exact .inl (by simp [RedisName.shared])

theorem Over.issued (h : db.Over IsWatchId) {e : RedisName × RedisValue} (he : e ∈ db.contents leader) :
    e.1.Issued := by
  rcases h.contents he with hshared | ⟨v, s, hparts, hv, -⟩
  · exact .inl hshared
  · exact .inr ⟨v, s, hparts, hv⟩

/-- What stands under the document key of an id that does not clash is the document. -/
theorem Over.eq_watch (h : db.Over IsWatchId) (hu : ¬ Clashes u) {e : RedisName × RedisValue}
    (he : e ∈ db.contents leader) (heq : e.1.name = (RedisName.watch u).name) : e.1 = .watch u := by
  have hname : (RedisName.watch u).name = "dibs:watch:" ++ u := by
    rw [RedisName.name_of_parts (k := .watch u) rfl, String.append_empty]
  rw [hname] at heq
  rcases h.contents he with hshared | ⟨v, s, hparts, hv, hs⟩
  · exact absurd (.inl (RedisName.eq_events_of_name hshared heq.symm)) hu
  · rw [RedisName.name_of_parts hparts, String.append_right_inj] at heq
    rcases hs with rfl | hs
    · exact RedisName.parts_inj hparts (by rw [← heq, String.append_empty]; rfl)
    · exact absurd (.inr ⟨v, s, hv.ne_empty, heq.symm, hs⟩) hu

/-- The documents among the keys. -/
theorem mem_contents_watch {v : RedisValue} :
    (RedisName.watch u, v) ∈ db.contents leader ↔
      ∃ w, db.watches.get? u = some w ∧ v = .text w.modelDumpJson := by
  simp only [Redis.contents, List.mem_append, mem_texts, mem_collected, Prod.mk.injEq, reduceCtorEq, false_and,
    and_false, exists_false, or_false, RedisName.watch.injEq, Dict.get?_eq_some_iff]
  constructor
  · rintro ⟨u', w, hw, rfl, rfl⟩
    exact ⟨w, hw, rfl⟩
  · rintro ⟨w, hw, rfl⟩
    exact ⟨u, w, hw, rfl, rfl⟩

/-- `GET` finds the document of an id that does not clash. -/
theorem Over.getRaw_watch (h : db.Over IsWatchId) (hu : ¬ Clashes u) :
    db.getRaw leader (RedisName.watch u).name = .ok ((db.watches.get? u).map Watch.modelDumpJson) := by
  unfold getRaw
  cases hfind : (db.contents leader).find? fun e => e.1.name = (RedisName.watch u).name with
  | none =>
    have hnone : db.watches.get? u = none := by
      by_contra hsome
      obtain ⟨w, hw⟩ := Option.ne_none_iff_exists'.mp hsome
      have hmem : (RedisName.watch u, RedisValue.text w.modelDumpJson) ∈ db.contents leader :=
        mem_contents_watch.mpr ⟨w, hw, rfl⟩
      exact List.find?_eq_none.mp hfind _ hmem (by simp)
    rw [hnone]
    rfl
  | some e =>
    obtain ⟨k, v⟩ := e
    have hmem := List.mem_of_find?_eq_some hfind
    obtain rfl : k = .watch u := h.eq_watch hu hmem (by simpa using List.find?_some hfind)
    obtain ⟨w, hw, rfl⟩ := mem_contents_watch.mp hmem
    rw [hw]
    rfl

/-- `GET` of the event set fails as soon as there is an event. -/
theorem Over.getRaw_events (h : db.Over IsWatchId) (hevents : db.events ≠ []) :
    db.getRaw leader RedisName.events.name = .error .wrongType := by
  have hmem : (RedisName.events, RedisValue.collection) ∈ db.contents leader := by
    simp [Redis.contents, mem_collected, hevents]
  have hvalue : ∀ v, (RedisName.events, v) ∈ db.contents leader → v = .collection := by
    intro v hv
    simp only [Redis.contents, List.mem_append, mem_texts, mem_collected, Prod.mk.injEq, reduceCtorEq, false_and,
      and_false, exists_false, false_or, or_false, true_and] at hv
    exact hv.2
  unfold getRaw
  cases hfind : (db.contents leader).find? fun e => e.1.name = RedisName.events.name with
  | none => exact absurd (List.find?_eq_none.mp hfind _ hmem) (by simp)
  | some e =>
    obtain ⟨k, v⟩ := e
    have hfound := List.mem_of_find?_eq_some hfind
    obtain rfl : k = .events :=
      (h.issued hfound).name_inj (.inl (by decide)) (by simpa using List.find?_some hfind)
    rw [hvalue v hfound]

/-- What the script of a cancellation answers about a document is about the same watch. -/
theorem cancelScript_watch {watch : Watch} (hget : db.get u = some watch) (runtime : Option WatchRuntime)
    (retention : Duration) (now : Time) (cas : String) :
    ∀ answer ∈ cancelAnswer watch runtime (db.cancelScript u cas (cancelMode retention now watch runtime)).1,
      ∀ w ∈ answer.watch, w.watchId = u := by
  obtain ⟨hwatch, hid⟩ := Option.filter_eq_some_iff.mp hget
  have hid : watch.watchId = u := of_decide_eq_true hid
  unfold cancelScript cancelMode
  rw [hwatch]
  dsimp only
  intro answer hanswer w hw
  split at hanswer
  · obtain rfl := Option.some.inj hanswer
    obtain rfl := Option.some.inj hw
    exact hid
  · split at hanswer
    · contradiction
    · split at hanswer
      · obtain rfl := Option.some.inj hanswer
        obtain rfl := Option.some.inj hw
        exact hid
      next hmode =>
        split at hmode
        · contradiction
        · obtain ⟨rfl, -⟩ := CancelMode.cancel.inj hmode
          obtain rfl := Option.some.inj hanswer
          obtain rfl := Option.some.inj hw
          exact hid

/-- A cancellation answers about the watch that it was asked for. -/
theorem cancelIfActive_watch (db : Redis) (retention : Duration) (now : Time) (u : String) :
    ∀ w ∈ (db.cancelIfActive retention now u).1.watch, w.watchId = u := by
  have hloop : ∀ attempts (db : Redis),
      ∀ w ∈ (cancelLoop retention now u attempts db).1.watch, w.watchId = u := by
    intro attempts
    induction attempts with
    | zero => exact fun db w hw => by contradiction
    | succ attempts ih =>
      intro db w hw
      unfold cancelLoop at hw
      split at hw
      next => contradiction
      next watch hget =>
        have hid : watch.watchId = u := of_decide_eq_true (Option.filter_eq_some_iff.mp hget).2
        split at hw
        next => exact Option.some.inj hw ▸ hid
        next =>
          dsimp only at hw
          split at hw
          next => exact ih _ w hw
          next answer hanswer =>
            exact cancelScript_watch hget _ retention now _ answer hanswer w hw
  exact hloop _ db

/-- A reader with an id that does not clash reads its own keys. -/
theorem Over.readsOwn (h : db.Over IsWatchId) (hu : ¬ Clashes u) (leader : Option String) :
    db.ReadsOwn leader u := by
  have hget : db.getNamed leader u = .ok (decode u ((db.watches.get? u).map Watch.modelDumpJson)) := by
    unfold getNamed
    rw [h.getRaw_watch hu]
    rfl
  -- Where a watch is read, its id is one of the service's.
  have hstored : ∀ watch, db.getNamed leader u = .ok (some watch) → IsWatchId u := by
    intro watch hwatch
    rw [hget] at hwatch
    cases hw : db.watches.get? u with
    | none =>
      rw [hw] at hwatch
      exact absurd (Except.ok.inj hwatch) (by simp [decode])
    | some w => exact h.watches u w hw
  refine ⟨hget, fun w hw hid hvalid hdated => ?_, fun k hk e he heq => ?_, fun retention now => ?_⟩
  · rw [hget, hw]
    unfold decode
    rw [Option.map_some, Option.bind_some, Watch.modelValidateJson_modelDumpJson hvalid hdated]
    simp [hid]
  · unfold cancelNames at hk
    split at hk
    next watch hwatch =>
      have hissued : ∀ k ∈ [RedisName.watch u, .runtime u, .claim u, .active, .schedule, .terminal], k.Issued := by
        have hid := hstored watch hwatch
        simp [RedisName.Issued, RedisName.shared, RedisName.parts, hid]
      have hk' : k ∈ [RedisName.watch u, .runtime u, .claim u, .active, .schedule, .terminal] := by
        split_ifs at hk
        · exact List.mem_singleton.mp hk ▸ List.mem_cons_self
        · exact hk
      exact (h.issued he).name_inj (hissued k hk') heq
    next =>
      obtain rfl := List.mem_singleton.mp hk
      exact h.eq_watch hu he heq
  · unfold cancelNamed
    rw [hget]
    cases hdecode : decode u ((db.watches.get? u).map Watch.modelDumpJson) with
    | none => exact ⟨_, rfl, fun w hw => by contradiction, fun _ => rfl⟩
    | some watch =>
      refine ⟨_, rfl, db.cancelIfActive_watch retention now u, fun hnone => ?_⟩
      rw [hnone] at hdecode
      contradiction

end Redis

/-- What the key scheme promises of an id: its keys are apart from all others, and in every state that the
repository produces a reader with the id reads its own keys. -/
def KeyScheme (u : String) : Prop :=
  KeysApart u ∧ ∀ s, keyMachine.Reach s → ∀ leader, s.db.ReadsOwn leader u

/-- The key scheme keeps its promise to exactly the ids that do not clash. -/
theorem keyScheme_iff {u : String} (hslash : '/' ∉ u.toList) : KeyScheme u ↔ ¬ Clashes u :=
  ⟨fun h => (keysApart_iff hslash).mp h.1,
    fun h => ⟨(keysApart_iff hslash).mpr h, fun _ hs leader => (over_of_reach hs).readsOwn h leader⟩⟩

/-- Only an id with a colon can clash, apart from that of the event set. -/
theorem not_clashes_of_colon {u : String} (hcolon : ':' ∉ u.toList) (hevents : u ≠ "events") : ¬ Clashes u := by
  rintro (h | ⟨v, s, -, rfl, hs⟩)
  · exact hevents h
  · have hmem : ':' ∈ s.toList := by
      have hall : ∀ s ∈ [":runtime", ":fence", ":claim", ":dispfence"], ':' ∈ s.toList := by decide
      rcases hs with hs | ⟨windowId, rfl⟩
      · exact hall s hs
      · rw [String.toList_append]
        exact List.mem_append_left _ (by decide)
    rw [String.toList_append] at hcolon
    exact hcolon (List.mem_append_right _ hmem)

/-- An id without a colon. -/
theorem keyScheme_iff_plain : KeyScheme "watch_1" :=
  (keyScheme_iff (by decide)).mpr (not_clashes_of_colon (by decide) (by decide))

namespace CallSys

/-- The id of a watch that the service could have created. -/
def drawnId : String := "watch_0123456789abcdef0123456789abcdef"

theorem drawnId_isWatchId : IsWatchId drawnId :=
  ⟨"0123456789abcdef0123456789abcdef", by decide, @of_decide_eq_true _ (List.decidableBAll _ _) rfl, by decide⟩

/-- The watch is created, and an expiry of it runs: what each of its round trips leaves. -/
def drawnDb : Redis :=
  (Redis.empty.create (Watch.sample drawnId true 1000000000 5)
    (initialRuntime (Watch.sample drawnId true 1000000000 5) 5 true none)).2

def drawnStart : Moved := (Client.expireStart drawnId none true).step 60 0 drawnDb

def drawnRead : Moved := drawnStart.client.step 60 0 drawnStart.db

def drawnSend : Moved := drawnRead.client.step 60 0 drawnRead.db

theorem reach_call {s : CallSys} (hs : keyMachine.Reach s) (label : CallLabel) (hallowed : callMachine.allowed s label)
    (hservice : label.OfService) : keyMachine.Reach (callMachine.exec label s) :=
  hs.step (KeyLabel.call label) ⟨hallowed, hservice⟩

/-- The next round trip of a client. -/
theorem reach_step {s : CallSys} (hs : keyMachine.Reach s) {client : Client} (hclient : s.clients 0 = client)
    (hfree : client.isFree = false) : ∃ s', keyMachine.Reach s' ∧ s'.retention = s.retention ∧ s'.now = s.now ∧
      s'.db = (client.step s.retention s.now s.db).db ∧
      s'.clients 0 = (client.step s.retention s.now s.db).client := by
  subst hclient
  refine ⟨_, reach_call hs (.step 0) hfree trivial, rfl, rfl, rfl, ?_⟩
  simp [callMachine]

/-- After the expiry there is an event. -/
theorem reach_event : ∃ s, keyMachine.Reach s ∧ s.db.events ≠ [] := by
  have hcreated := reach_call (.init fresh_init) (.call (.create (Watch.sample drawnId true 1000000000 5)
    (initialRuntime (Watch.sample drawnId true 1000000000 5) 5 true none))) trivial
    fun u hu => Option.some.inj hu ▸ drawnId_isWatchId
  have hcalled := reach_call hcreated (.expire 0 drawnId none true) rfl trivial
  obtain ⟨s, hs, hretention, hnow, hdb, hclient⟩ := reach_step hcalled rfl rfl
  change s.db = drawnStart.db at hdb
  change s.clients 0 = drawnStart.client at hclient
  obtain ⟨s', hs', hretention', hnow', hdb', hclient'⟩ := reach_step hs hclient (by decide +kernel)
  rw [hretention, hnow, hdb] at hdb' hclient'
  change s'.db = drawnRead.db at hdb'
  change s'.clients 0 = drawnRead.client at hclient'
  obtain ⟨s'', hs'', -, -, hdb'', -⟩ := reach_step hs' hclient' (by decide +kernel)
  rw [hretention', hnow', hretention, hnow, hdb'] at hdb''
  change s''.db = drawnSend.db at hdb''
  refine ⟨s'', hs'', ?_⟩
  rw [hdb'']
  decide +kernel

end CallSys

/-- Once a watch has expired, reading the watch `events` fails on the event set. -/
theorem events_unreadable : ¬ ∀ u : String, u ≠ "" → '/' ∉ u.toList → KeyScheme u := by
  intro h
  obtain ⟨s, hs, hevents⟩ := CallSys.reach_event
  have hraw : s.db.getRaw none RedisName.events.name = .error .wrongType := (over_of_reach hs).getRaw_events hevents
  have hread := ((h "events" (by decide) (by decide)).2 s hs none).get
  have hname : (RedisName.watch "events").name = RedisName.events.name := by decide
  unfold Redis.getNamed at hread
  rw [hname, hraw] at hread
  contradiction

end Dibs
