import Dibs.Redis.Milliseconds
import Dibs.Redis.Scripts
import Dibs.Store.Row

/-!
# The Redis watch repository

The state machine of `RedisWatchRepository` in `backend/db/repositories/watches.py`: what each method
computes from its arguments, which script it runs, and what it makes of the script's code. A method
whose script fails, or whose reply does not parse, raises; it answers `none`.

`cancel_if_active` and `expire_if_eligible` read the document, read the sidecar, and then run their
script. Their parts are functions of their own (`cancelMode`, `cancelAnswer`, `expireRequest`,
`expireAnswer`), so that the methods as single calls and their steps between other clients' steps are
built from the same definitions.
-/

namespace Dibs

/-- `int(lease_seconds * 1000)`, a product of floats. The callers pass whole seconds only. -/
def leaseMs (lease : Duration) : ℤ := wholeMilliseconds lease

/-- `_RETENTION_GRACE_SECONDS`. -/
def retentionGrace : Duration := 3600 * 1000000

/-- What `expire_if_eligible` hands to its script. -/
structure ExpireRequest where
  newWatch : Watch
  newRuntime : Option WatchRuntime
  eventId : Option String
  newRevision : ℕ
  terminalDeleteMs : ℤ
  retentionTtlMs : ℤ
deriving DecidableEq

/-- `"" if runtime is None else str(runtime.revision)`. -/
def casRevision (runtime : Option WatchRuntime) : String :=
  runtime.elim "" fun runtime => toString runtime.revision

/-- `_terminal_deadlines`: the milliseconds of the retention deadline and of the native time to
live. -/
def terminalDeadlines (retention : Duration) (now : Time) : ℤ × ℤ :=
  (toMs (now + retention), wholeMilliseconds (retention + retentionGrace))

/-- What `cancel_if_active` hands to its script after reading the document and the sidecar. -/
def cancelMode (retention : Duration) (now : Time) (watch : Watch) (runtime : Option WatchRuntime) :
    CancelMode :=
  match runtime.filter fun runtime => runtime.phase = some .booking with
  | some runtime => .pending { runtime with cancelRequested := true }
  | none =>
    let deadlines := terminalDeadlines retention now
    .cancel (watch.ended .cancelled now) (runtime.map (·.finished (now + retention))) deadlines.1
      deadlines.2

/-- What `cancel_if_active` makes of the script's code; `none` is to read again. -/
def cancelAnswer (watch : Watch) (runtime : Option WatchRuntime) :
    TransitionReply → Option TransitionResult
  | .fenced => none
  | .applied w => some (.applied w none ((runtime.map (·.revision + 1)).getD 0))
  | .notEligible _ => some (.notEligible watch)
  | .noop w => some (.noop w)
  | .unknown => some .unknown

/-- What `expire_if_eligible` does after reading the document and the sidecar: answer at once, or run
its script. -/
def expireRequest (retention : Duration) (now : Time) (watchId : String)
    (expectedRevision : Option ℕ) (force : Bool) (watch : Watch) (runtime : Option WatchRuntime) :
    TransitionResult ⊕ ExpireRequest :=
  if expectedRevision.any fun expected => runtime.any fun runtime => runtime.revision ≠ expected then
    .inl .fenced
  else if !force && !watch.isExhausted now then .inl (.notEligible watch)
  else
    let deadlines := terminalDeadlines retention now
    let newRevision := (runtime.map (·.revision + 1)).getD 0
    .inr {
      newWatch := watch.ended .expired now
      newRuntime := runtime.map (·.finished (now + retention))
      eventId := some (terminalEventId watchId .expired newRevision)
      newRevision := newRevision
      terminalDeleteMs := deadlines.1
      retentionTtlMs := deadlines.2 }

/-- What `expire_if_eligible` makes of the script's code. -/
def expireAnswer (request : ExpireRequest) : TransitionReply → TransitionResult
  | .applied w => .applied w request.eventId request.newRevision
  | .noop w => .noop w
  | .fenced => .fenced
  | .unknown | .notEligible _ => .unknown

/-- The score of a sidecar with a window and a due time, in `create_with_schedule` and
`commit_window`. -/
def scheduledMs (runtime : WatchRuntime) : Option ℤ :=
  match runtime.windowId, runtime.scheduledFor with
  | some _, some scheduledFor => some (toMs scheduledFor)
  | _, _ => none

/-- The sidecar that `commit_window` stores. -/
def storedRuntime (retention : Duration) (now : Time) (claim : WindowClaim) (newWatch : Watch)
    (newRuntime : WatchRuntime) : WatchRuntime :=
  { newRuntime with
    revision := claim.runtime.revision + 1
    phase := none
    terminalDeleteAt := if newWatch.status.isTerminal then some (now + retention)
      else newRuntime.terminalDeleteAt }

namespace Redis

/-- `get`: a document stored under another watch's id reads as missing. -/
def get (db : Redis) (watchId : String) : Option Watch :=
  (db.watches.get? watchId).filter fun watch => watch.watchId = watchId

/-- `get_runtime`. -/
def getRuntime (db : Redis) (watchId : String) : Option WatchRuntime := db.runtimes.get? watchId

/-- `create_with_schedule`. -/
def create (db : Redis) (watch : Watch) (runtime : WatchRuntime) : CreateResult × Redis :=
  db.createWithSchedule watch.watchId watch runtime (scheduledMs runtime)

/-- `claim_window`. -/
def claimWindow (db : Redis) (now : Time) (watchId windowId ownerId : String) (lease : Duration)
    (ignoreSchedule : Bool) : Option ClaimResult × Redis :=
  let out := db.claimScript watchId windowId ownerId (leaseMs lease) (toMs now) ignoreSchedule
  (match out.1 with
    | none => none
    | some .unknown => some .unknown
    | some .terminal => some .terminal
    | some .stale => some .stale
    | some .early => some .early
    | some .busy => some .busy
    | some (.owned watch runtime token expires) => do
      let token ← pyInt token
      let expires ← pyInt expires
      return .owned ⟨watch, runtime, ownerId, windowId, token.toNat, fromMs expires⟩, out.2)

/-- `begin_booking`. The sidecar it stores is the claim's snapshot. -/
def beginBooking (db : Redis) (now : Time) (claim : WindowClaim) : Option BookingPermit × Redis :=
  let watchId := claim.watch.watchId
  db.beginScript watchId (toString claim.runtime.revision) (toString claim.token) claim.ownerId
    { claim.runtime with phase := some .booking } (toMs now) (watchId ++ ":" ++ toString claim.token)

/-- `commit_window`. -/
def commitWindow (db : Redis) (retention : Duration) (now : Time) (claim : WindowClaim)
    (newWatch : Watch) (newRuntime : WatchRuntime) : Option CommitResult × Redis :=
  let watchId := claim.watch.watchId
  let isTerminal := newWatch.status.isTerminal
  let stored := storedRuntime retention now claim newWatch newRuntime
  let terminal := if isTerminal then some (terminalDeadlines retention now) else none
  let nextScheduledMs := if isTerminal then none else scheduledMs stored
  let eventId := if isTerminal && newWatch.status.hasEvent then
    some (terminalEventId watchId newWatch.status stored.revision) else none
  db.commitScript watchId (toString claim.runtime.revision) (toString claim.token) claim.ownerId newWatch
    stored terminal nextScheduledMs eventId (toMs now)

/-- The loop of `cancel_if_active`, with the number of attempts left. -/
def cancelLoop (retention : Duration) (now : Time) (watchId : String) :
    ℕ → Redis → TransitionResult × Redis
  | 0, db => (.fenced, db)
  | attempts + 1, db =>
    match db.get watchId with
    | none => (.unknown, db)
    | some watch =>
      if watch.status.isTerminal then (.noop watch, db)
      else
        let runtime := db.getRuntime watchId
        let out := db.cancelScript watchId (casRevision runtime) (cancelMode retention now watch runtime)
        match cancelAnswer watch runtime out.1 with
        | none => cancelLoop retention now watchId attempts out.2
        | some answer => (answer, out.2)

/-- The attempts of `cancel_if_active`. -/
def cancelAttempts : ℕ := 5

/-- `cancel_if_active`, run without another client's step in between. -/
def cancelIfActive (db : Redis) (retention : Duration) (now : Time) (watchId : String) :
    TransitionResult × Redis := cancelLoop retention now watchId cancelAttempts db

/-- `expire_if_eligible`, run without another client's step in between. -/
def expireIfEligible (db : Redis) (retention : Duration) (now : Time) (watchId : String)
    (expectedRevision : Option ℕ) (force : Bool) : TransitionResult × Redis :=
  match db.get watchId with
  | none => (.unknown, db)
  | some watch =>
    if watch.status.isTerminal then (.noop watch, db)
    else
      let runtime := db.getRuntime watchId
      match expireRequest retention now watchId expectedRevision force watch runtime with
      | .inl answer => (answer, db)
      | .inr request =>
        let out := db.expireScript watchId (casRevision runtime) request.newWatch request.newRuntime
          request.eventId request.terminalDeleteMs request.retentionTtlMs
        (expireAnswer request out.1, out.2)

/-- `release_claim`. -/
def releaseClaim (db : Redis) (claim : WindowClaim) : Option Bool × Redis :=
  db.releaseScript claim.watch.watchId claim.ownerId (toString claim.token)

/-- `claim_dispatch`. -/
def claimDispatch (db : Redis) (now : Time) (marker : ScheduleMarker) (ownerId : String)
    (lease : Duration) : Option DispatchResult × Redis :=
  let out := db.claimDispatchScript marker.watchId marker.windowId (dispatchWindowHash marker.windowId)
    ownerId (leaseMs lease) (toMs now)
  (match out.1 with
    | none => none
    | some .stale => some .stale
    | some .busy => some .busy
    | some (.claimed generation expires) => do
      let generation ← pyInt generation
      let expires ← pyInt expires
      return .claimed ⟨marker.watchId, marker.windowId, marker.scheduledFor, ownerId, generation.toNat,
        fromMs expires⟩, out.2)

/-- `mark_dispatched`. -/
def markDispatched (db : Redis) (now : Time) (claim : DispatchClaim) (redispatchAfter : Time) :
    Option Bool × Redis :=
  db.markDispatchedScript claim.watchId (dispatchWindowHash claim.windowId) claim.ownerId
    (toString claim.generation) (toMs redispatchAfter) (toMs now)

/-- `release_dispatch`. -/
def releaseDispatch (db : Redis) (claim : DispatchClaim) : Option Bool × Redis :=
  db.releaseDispatchScript claim.watchId (dispatchWindowHash claim.windowId) claim.ownerId
    (toString claim.generation)

end Redis

end Dibs
