import Dibs.Lib.Dict
import Dibs.Redis.Lua
import Dibs.Store.Decisions

/-!
# The Redis database and the watch scripts

The keys that `RedisWatchRepository` owns, one table for each family of keys, and the Lua scripts of
`backend/db/repositories/watch_scripts.py` over them. A script runs as one atomic step, so it is a
function of the database and its `ARGV`, in the order of the source's tests. A script that fails
(a comparison with something that is no number, a `PX` that is not positive) answers `none`; what it
wrote before stays.

JSON texts are the documents they encode: the scripts store them verbatim and read single fields.
Sets are lists without repetition, and sorted sets dictionaries from members to scores. The family of
a key stands for its name: watch ids are the ids that `WatchService.create` draws, so no two families
share a name.
-/

namespace Dibs

/-- The keys that can carry a native time to live. -/
inductive RedisKey
  | watch (watchId : String)
  | runtime (watchId : String)
  | claim (watchId : String)
  | dispatch (watchId windowHash : String)
deriving DecidableEq

/-- The database: the keys of `RedisWatchRepository` by family. -/
structure Redis where
  /-- `dibs:watch:{id}`. -/
  watches : Dict String Watch
  /-- `dibs:watch:{id}:runtime`. -/
  runtimes : Dict String WatchRuntime
  /-- `dibs:watch:{id}:fence`. -/
  fence : Dict String ℕ
  /-- `dibs:watch:{id}:claim`. -/
  claims : Dict String String
  /-- `dibs:watch:{id}:dispfence`. -/
  dispatchFence : Dict String ℕ
  /-- `dibs:watch:{id}:dispatch:{hash}`. -/
  dispatches : Dict (String × String) String
  /-- `INDEX_KEY`. -/
  all : List String
  /-- `ACTIVE_INDEX_KEY`. -/
  active : List String
  /-- `SCHEDULE_INDEX_KEY`. -/
  schedule : Dict String ℤ
  /-- `TERMINAL_INDEX_KEY`. -/
  terminal : Dict String ℤ
  /-- `EVENTS_KEY`. -/
  events : List String
  /-- The times to live that run, in milliseconds. -/
  ttl : Dict RedisKey ℤ
deriving DecidableEq

/-- What `CLAIM_WINDOW` answers. -/
inductive ClaimReply
  | unknown
  | terminal
  | stale
  | early
  | busy
  | owned (watch : Watch) (runtime : WatchRuntime) (token expires : String)
deriving DecidableEq

/-- What `CLAIM_DISPATCH` answers. -/
inductive DispatchReply
  | stale
  | busy
  | claimed (generation expires : String)
deriving DecidableEq

/-- What `CANCEL_IF_ACTIVE` and `EXPIRE_IF_ELIGIBLE` answer. -/
inductive TransitionReply
  | unknown
  | noop (watch : Watch)
  | fenced
  | notEligible (watch : Watch)
  | applied (watch : Watch)
deriving DecidableEq

/-- The arguments of `CANCEL_IF_ACTIVE` by its mode. -/
inductive CancelMode
  /-- `pending`: record the intent in the sidecar. -/
  | pending (newRuntime : WatchRuntime)
  /-- `cancel`: store the terminal document. -/
  | cancel (newWatch : Watch) (newRuntime : Option WatchRuntime) (terminalDeleteMs retentionTtlMs : ℤ)
deriving DecidableEq

/-- Whether a held claim value is still live, `exp > now`. -/
def liveClaim (v : String) (nowMs : ℤ) : Option Bool := do
  let held ← parseClaim v
  return decide (nowMs < (← held.expires))

/-- Whether a claim value has this owner and token and is still live, the negation of
`owner ~= o or token ~= t or exp <= now`. -/
def ownsClaim (v ownerId token : String) (nowMs : ℤ) : Option Bool := do
  let held ← parseClaim v
  if held.owner ≠ ownerId ∨ held.token ≠ token then return false
  return decide (nowMs < (← held.expires))

/-- Whether a claim value has this owner and token. -/
def namesClaim (v ownerId token : String) : Option Bool := do
  let held ← parseClaim v
  return held.owner = ownerId ∧ held.token = token

namespace Redis

/-- The database before any operation. -/
def empty : Redis :=
  ⟨.empty, .empty, .empty, .empty, .empty, .empty, [], [], .empty, .empty, [], .empty⟩

/-- `EXISTS`. -/
def exists? (db : Redis) : RedisKey → Bool
  | .watch u => db.watches.contains u
  | .runtime u => db.runtimes.contains u
  | .claim u => db.claims.contains u
  | .dispatch u h => db.dispatches.contains (u, h)

/-- `DEL`, and the removal of a key whose time to live has run out. -/
def del (db : Redis) (k : RedisKey) : Redis :=
  let db := { db with ttl := db.ttl.erase k }
  match k with
  | .watch u => { db with watches := db.watches.erase u }
  | .runtime u => { db with runtimes := db.runtimes.erase u }
  | .claim u => { db with claims := db.claims.erase u }
  | .dispatch u h => { db with dispatches := db.dispatches.erase (u, h) }

/-- `PEXPIRE`: a time that is not positive deletes the key. -/
def pexpire (db : Redis) (k : RedisKey) (ms : ℤ) : Redis :=
  if !db.exists? k then db
  else if ms ≤ 0 then db.del k
  else { db with ttl := db.ttl.insert k ms }

/-- Time passes at the server: every time to live gets shorter. -/
def elapse (db : Redis) (ms : ℤ) : Redis := { db with ttl := db.ttl.map (· - ms) }

/-- `SET` of a watch document. -/
def setWatch (db : Redis) (watchId : String) (watch : Watch) : Redis :=
  { db with watches := db.watches.insert watchId watch, ttl := db.ttl.erase (.watch watchId) }

/-- `SET` of a sidecar. -/
def setRuntime (db : Redis) (watchId : String) (runtime : WatchRuntime) : Redis :=
  { db with runtimes := db.runtimes.insert watchId runtime, ttl := db.ttl.erase (.runtime watchId) }

/-- `SET … PX` of a claim. -/
def setClaim (db : Redis) (watchId v : String) (ms : ℤ) : Redis :=
  { db with claims := db.claims.insert watchId v, ttl := db.ttl.insert (.claim watchId) ms }

/-- `SET … PX` of a dispatch lease. -/
def setDispatch (db : Redis) (watchId windowHash v : String) (ms : ℤ) : Redis :=
  { db with
    dispatches := db.dispatches.insert (watchId, windowHash) v
    ttl := db.ttl.insert (.dispatch watchId windowHash) ms }

/-- `SREM` from the active set and `ZREM` from the schedule. -/
def unschedule (db : Redis) (watchId : String) : Redis :=
  { db with active := db.active.erase watchId, schedule := db.schedule.erase watchId }

/-- `CREATE_WITH_SCHEDULE`. -/
def createWithSchedule (db : Redis) (watchId : String) (watch : Watch) (runtime : WatchRuntime)
    (scheduledMs : Option ℤ) : CreateResult × Redis :=
  match db.watches.get? watchId with
  | some stored => (.alreadyExists stored (db.runtimes.get? watchId), db)
  | none =>
    let db := (db.setWatch watchId watch).setRuntime watchId runtime
    (.created watch runtime,
      { db with
        fence := db.fence.insert watchId 0
        all := db.all.insert watchId
        active := db.active.insert watchId
        schedule := match scheduledMs with
          | some ms => db.schedule.insert watchId ms
          | none => db.schedule })

/-- `CLAIM_WINDOW`. -/
def claimScript (db : Redis) (watchId windowId ownerId : String) (leaseMs nowMs : ℤ)
    (ignoreSchedule : Bool) : Option ClaimReply × Redis :=
  match db.watches.get? watchId with
  | none => (some .unknown, db)
  | some w =>
    if w.status ≠ .active then (some .terminal, db)
    else match db.runtimes.get? watchId with
    | none => (some .unknown, db)
    | some rraw =>
      if rraw.windowId ≠ some windowId then (some .stale, db)
      else if !ignoreSchedule && (db.schedule.get? watchId).any (fun due => decide (nowMs < due)) then
        (some .early, db)
      else match (db.claims.get? watchId).elim (some false) (liveClaim · nowMs) with
      | none => (none, db)
      | some true => (some .busy, db)
      | some false =>
        let token := (db.fence.get? watchId).getD 0 + 1
        let expires := nowMs + leaseMs
        let db := { db with fence := db.fence.insert watchId token }
        if leaseMs ≤ 0 then (none, db)
        else
          (some (.owned w rraw (luaToString token) (luaToString expires)),
            db.setClaim watchId (claimValue ownerId token expires) leaseMs)

/-- `BEGIN_BOOKING`. -/
def beginScript (db : Redis) (watchId expectedRevision expectedToken ownerId : String)
    (bookingRuntime : WatchRuntime) (nowMs : ℤ) (permitId : String) : Option BookingPermit × Redis :=
  match db.watches.get? watchId with
  | none => (some .fenced, db)
  | some w =>
    if w.status ≠ .active then (some .fenced, db)
    else match db.runtimes.get? watchId with
    | none => (some .fenced, db)
    | some rt =>
      if luaToString rt.revision ≠ expectedRevision then (some .fenced, db)
      else match db.claims.get? watchId with
      | none => (some .fenced, db)
      | some claim =>
        match ownsClaim claim ownerId expectedToken nowMs with
        | none => (none, db)
        | some false => (some .fenced, db)
        | some true =>
          if rt.cancelRequested then (some .cancelled, db)
          else (some (.granted permitId), db.setRuntime watchId bookingRuntime)

/-- `COMMIT_WINDOW`. `terminal` are the deletion deadline and the time to live of a terminal
commit. -/
def commitScript (db : Redis) (watchId expectedRevision expectedToken ownerId : String)
    (newWatch : Watch) (newRuntime : WatchRuntime) (terminal : Option (ℤ × ℤ))
    (nextScheduledMs : Option ℤ) (eventId : Option String) (nowMs : ℤ) :
    Option CommitResult × Redis :=
  match db.watches.get? watchId with
  | none => (some .unknown, db)
  | some w =>
    if w.status ≠ .active then (some (.terminal none), db)
    else match db.runtimes.get? watchId with
    | none => (some .unknown, db)
    | some rraw =>
      if luaToString rraw.revision ≠ expectedRevision then (some .fenced, db)
      else match db.claims.get? watchId with
      | none => (some .fenced, db)
      | some claim =>
        match ownsClaim claim ownerId expectedToken nowMs with
        | none => (none, db)
        | some false => (some .fenced, db)
        | some true =>
          let db := ((db.setWatch watchId newWatch).setRuntime watchId newRuntime).del (.claim watchId)
          match terminal with
          | some (terminalDeleteMs, retentionTtlMs) =>
            let db := db.unschedule watchId
            let db := { db with
              terminal := db.terminal.insert watchId terminalDeleteMs
              events := eventId.elim db.events db.events.insert }
            (some (.committed newWatch eventId),
              (db.pexpire (.watch watchId) retentionTtlMs).pexpire (.runtime watchId) retentionTtlMs)
          | none =>
            (some (.committed newWatch none),
              { db with schedule := match nextScheduledMs with
                  | some ms => db.schedule.insert watchId ms
                  | none => db.schedule.erase watchId })

/-- The writes of `CANCEL_IF_ACTIVE` and `EXPIRE_IF_ELIGIBLE` that finish a watch. A sidecar stands
for the present one only; an empty text in its place reads as none. -/
def finish (db : Redis) (watchId : String) (newWatch : Watch) (newRuntime : Option WatchRuntime)
    (terminalDeleteMs retentionTtlMs : ℤ) (eventId : Option String) : Redis :=
  let db := db.setWatch watchId newWatch
  let db := match db.runtimes.get? watchId, newRuntime with
    | none, _ => db
    | some _, some newRuntime => db.setRuntime watchId newRuntime
    | some _, none => db.del (.runtime watchId)
  let db := (db.del (.claim watchId)).unschedule watchId
  let db := { db with
    terminal := db.terminal.insert watchId terminalDeleteMs
    events := eventId.elim db.events db.events.insert }
  (db.pexpire (.watch watchId) retentionTtlMs).pexpire (.runtime watchId) retentionTtlMs

/-- The compare of `CANCEL_IF_ACTIVE` and `EXPIRE_IF_ELIGIBLE`: a sidecar is there, a revision is
expected, and it is another one. -/
def overtaken (db : Redis) (watchId casRevision : String) : Bool :=
  (db.runtimes.get? watchId).any fun rraw =>
    casRevision ≠ "" ∧ luaToString rraw.revision ≠ casRevision

/-- `CANCEL_IF_ACTIVE`. -/
def cancelScript (db : Redis) (watchId casRevision : String) (mode : CancelMode) :
    TransitionReply × Redis :=
  match db.watches.get? watchId with
  | none => (.unknown, db)
  | some w =>
    if w.status ≠ .active then (.noop w, db)
    else if db.overtaken watchId casRevision then (.fenced, db)
    else match mode with
    | .pending newRuntime =>
      (.notEligible w,
        if db.runtimes.contains watchId then db.setRuntime watchId newRuntime else db)
    | .cancel newWatch newRuntime terminalDeleteMs retentionTtlMs =>
      (.applied newWatch, db.finish watchId newWatch newRuntime terminalDeleteMs retentionTtlMs none)

/-- `EXPIRE_IF_ELIGIBLE`. -/
def expireScript (db : Redis) (watchId casRevision : String) (newWatch : Watch)
    (newRuntime : Option WatchRuntime) (eventId : Option String) (terminalDeleteMs retentionTtlMs : ℤ) :
    TransitionReply × Redis :=
  match db.watches.get? watchId with
  | none => (.unknown, db)
  | some w =>
    if w.status ≠ .active then (.noop w, db)
    else if db.overtaken watchId casRevision then (.fenced, db)
    else
      (.applied newWatch,
        db.finish watchId newWatch newRuntime terminalDeleteMs retentionTtlMs eventId)

/-- `RELEASE_CLAIM`. -/
def releaseScript (db : Redis) (watchId ownerId token : String) : Option Bool × Redis :=
  match db.claims.get? watchId with
  | none => (some false, db)
  | some claim =>
    match namesClaim claim ownerId token with
    | none => (none, db)
    | some true => (some true, db.del (.claim watchId))
    | some false => (some false, db)

/-- `CLAIM_DISPATCH`. -/
def claimDispatchScript (db : Redis) (watchId windowId windowHash ownerId : String)
    (leaseMs nowMs : ℤ) : Option DispatchReply × Redis :=
  match db.watches.get? watchId with
  | none => (some .stale, db)
  | some w =>
    if w.status ≠ .active then (some .stale, db)
    else match db.runtimes.get? watchId with
    | none => (some .stale, db)
    | some rraw =>
      if rraw.windowId ≠ some windowId then (some .stale, db)
      else if !db.schedule.contains watchId then (some .stale, db)
      else match (db.dispatches.get? (watchId, windowHash)).elim (some false) (liveClaim · nowMs) with
      | none => (none, db)
      | some true => (some .busy, db)
      | some false =>
        let gen := (db.dispatchFence.get? watchId).getD 0 + 1
        let expires := nowMs + leaseMs
        let db := { db with dispatchFence := db.dispatchFence.insert watchId gen }
        if leaseMs ≤ 0 then (none, db)
        else
          (some (.claimed (luaToString gen) (luaToString expires)),
            db.setDispatch watchId windowHash (claimValue ownerId gen expires) leaseMs)

/-- `MARK_DISPATCHED`. -/
def markDispatchedScript (db : Redis) (watchId windowHash ownerId generation : String)
    (redispatchAfterMs nowMs : ℤ) : Option Bool × Redis :=
  match db.dispatches.get? (watchId, windowHash) with
  | none => (some false, db)
  | some held =>
    match namesClaim held ownerId generation with
    | none => (none, db)
    | some false => (some false, db)
    | some true =>
      let v := ownerId ++ "|" ++ generation ++ "|" ++ luaToString redispatchAfterMs
      (some true, db.setDispatch watchId windowHash v (max (redispatchAfterMs - nowMs) 1))

/-- `RELEASE_DISPATCH`. -/
def releaseDispatchScript (db : Redis) (watchId windowHash ownerId generation : String) :
    Option Bool × Redis :=
  match db.dispatches.get? (watchId, windowHash) with
  | none => (some false, db)
  | some held =>
    match namesClaim held ownerId generation with
    | none => (none, db)
    | some true => (some true, db.del (.dispatch watchId windowHash))
    | some false => (some false, db)

end Redis

end Dibs
