import Dibs.Lib.Machine
import Dibs.Store.Row

/-!
# Runs of the in-memory store

The store as a machine. Any number of clients call the methods in any order, each call at the
instant the clock then shows, and the clock moves forward between calls. The state keeps a log of the
calls with their results, newest first, so that what a run did is a property of its last state.

Which calls may be made is a parameter (`storeMachine`). `Lawful` is what every caller of the
repository respects: the claims it presents are ones the store issued, and the document it commits
for a watch carries that watch's id.
-/

namespace Dibs

/-- One call of a repository method. -/
inductive Op
  | create (watch : Watch) (runtime : WatchRuntime)
  | claim (watchId windowId ownerId : String) (lease : Duration) (ignoreSchedule : Bool)
  | begin (claim : WindowClaim)
  | commit (claim : WindowClaim) (newWatch : Watch) (newRuntime : WatchRuntime)
  | cancel (watchId : String)
  | expire (watchId : String) (expectedRevision : Option ℕ) (force : Bool)
  | release (claim : WindowClaim)
  | claimDispatch (marker : ScheduleMarker) (ownerId : String) (lease : Duration)
  | markDispatched (claim : DispatchClaim) (redispatchAfter : Time)
  | releaseDispatch (claim : DispatchClaim)
  | synthesize (watchId : String) (runtime : WatchRuntime)
  | cleanup (now : Time) (batchSize : ℕ)
deriving DecidableEq

/-- The result of a call. -/
inductive Reply
  | create (result : CreateResult)
  | claim (result : ClaimResult)
  | begin (permit : BookingPermit)
  | commit (result : CommitResult)
  | transition (result : TransitionResult)
  | dispatch (result : DispatchResult)
  | flag (result : Bool)
  | cleanup (result : CleanupResult)
deriving DecidableEq

/-- One call of a run: when it ran, what was called, and what it returned. -/
structure Entry where
  instant : Time
  op : Op
  reply : Reply
deriving DecidableEq

/-- A call on the tables at an instant. -/
def Memory.call (m : Memory) (now : Time) : Op → Reply × Memory
  | .create watch runtime => (m.createWithSchedule watch runtime).map .create id
  | .claim u w o lease ignoreSchedule => (m.claimWindow now u w o lease ignoreSchedule).map .claim id
  | .begin c => (m.beginBooking now c).map .begin id
  | .commit c nw nr => (m.commitWindow now c nw nr).map .commit id
  | .cancel u => (m.cancelIfActive now u).map .transition id
  | .expire u expected force => (m.expireIfEligible now u expected force).map .transition id
  | .release c => (m.releaseClaim c).map .flag id
  | .claimDispatch k o lease => (m.claimDispatch now k o lease).map .dispatch id
  | .markDispatched c after => (m.markDispatched c after).map .flag id
  | .releaseDispatch c => (m.releaseDispatch c).map .flag id
  | .synthesize u runtime => (m.synthesizeMarker now u runtime).map .flag id
  | .cleanup now batchSize => (m.cleanupDue now batchSize).map .cleanup id

/-- The watch id whose row a call reads and writes; bounded cleanup has none. -/
def Op.target : Op → String
  | .create watch _ => watch.watchId
  | .claim u _ _ _ _ | .cancel u | .expire u _ _ | .synthesize u _ => u
  | .begin c | .commit c _ _ | .release c => c.watch.watchId
  | .claimDispatch k _ _ => k.watchId
  | .markDispatched c _ | .releaseDispatch c => c.watchId
  | .cleanup _ _ => ""

/-- Whether a call is the bounded cleanup. -/
def Op.isCleanup : Op → Bool
  | .cleanup _ _ => true
  | _ => false

/-- A result that says that something was applied. -/
def Reply.isApplied : Reply → Bool
  | .create (.created _ _) | .claim (.owned _) | .begin (.granted _) | .commit (.committed _ _)
  | .transition (.applied _ _ _) | .dispatch (.claimed _) | .flag true => true
  | _ => false

/-- What a call can do to the row it is about: the call, its result, and the row it leaves. `d` is
the retention, `now` the instant of the call and `r` the row before it. -/
inductive Effect (d : Duration) (now : Time) (r : Row) : Op → Reply → Row → Prop
  /-- A watch is stored under an unused id. -/
  | create {watch : Watch} {runtime : WatchRuntime} (hnone : r.watch = none) :
      Effect d now r (.create watch runtime) (.create (.created watch runtime))
        { r with
          watch := some watch
          runtime := some runtime
          fence := some 0
          marker := markerOf watch.watchId runtime }
  /-- A claim is granted on the current window. -/
  | claim {u w o : String} {lease : Duration} {ignoreSchedule : Bool} {watch : Watch}
      {runtime : WatchRuntime} (hwatch : r.watch = some watch) (hruntime : r.runtime = some runtime)
      (hactive : watch.status = .active) (hwindow : runtime.windowId = some w)
      (hdue : ignoreSchedule = false → ∀ due, runtime.scheduledFor = some due → due ≤ now)
      (hfree : ∀ held, r.claim = some held → held.windowId = w → held.expiresAt ≤ now) :
      Effect d now r (.claim u w o lease ignoreSchedule)
        (.claim (.owned ⟨watch, runtime, o, w, r.fence.getD 0 + 1, now + lease⟩))
        { r with
          fence := some (r.fence.getD 0 + 1)
          claim := some ⟨w, o, r.fence.getD 0 + 1, now + lease⟩ }
  /-- A booking permit is granted to the owner. -/
  | begin {c : WindowClaim} {permitId : String} {watch : Watch} {runtime : WatchRuntime}
      (hwatch : r.watch = some watch) (hruntime : r.runtime = some runtime)
      (hactive : watch.status = .active) (hrev : runtime.revision = c.runtime.revision)
      (howns : r.Owns now c) (hcancel : runtime.cancelRequested = false) :
      Effect d now r (.begin c) (.begin (.granted permitId))
        { r with runtime := some { runtime with phase := some .booking } }
  /-- The owner commits a successor window. -/
  | reschedule {c : WindowClaim} {nw : Watch} {nr : WatchRuntime} {watch : Watch}
      {runtime : WatchRuntime} (hwatch : r.watch = some watch) (hruntime : r.runtime = some runtime)
      (hactive : watch.status = .active) (hrev : runtime.revision = c.runtime.revision)
      (howns : r.Owns now c) (hnew : nw.status = .active) :
      Effect d now r (.commit c nw nr) (.commit (.committed nw none))
        (r.reschedule c.watch.watchId nw
          { nr with revision := runtime.revision + 1, phase := none })
  /-- The owner commits a terminal watch. -/
  | finish {c : WindowClaim} {nw : Watch} {nr : WatchRuntime} {watch : Watch}
      {runtime : WatchRuntime} (hwatch : r.watch = some watch) (hruntime : r.runtime = some runtime)
      (hactive : watch.status = .active) (hrev : runtime.revision = c.runtime.revision)
      (howns : r.Owns now c) (hnew : nw.status ≠ .active) :
      Effect d now r (.commit c nw nr)
        (.commit (.committed nw (eventOf c.watch.watchId nw.status (runtime.revision + 1))))
        (r.finish nw
          (some { nr with
            revision := runtime.revision + 1
            phase := none
            terminalDeleteAt := some (now + d) }) (now + d))
  /-- A cancellation is recorded while a booking is in flight. -/
  | pend {u : String} {watch : Watch} {runtime : WatchRuntime} (hwatch : r.watch = some watch)
      (hruntime : r.runtime = some runtime) (hactive : watch.status = .active)
      (hphase : runtime.phase = some .booking) :
      Effect d now r (.cancel u) (.transition (.notEligible watch))
        { r with runtime := some { runtime with cancelRequested := true } }
  /-- An active watch is cancelled. -/
  | cancel {u : String} {watch : Watch} (hwatch : r.watch = some watch)
      (hactive : watch.status = .active)
      (hphase : ∀ runtime, r.runtime = some runtime → runtime.phase ≠ some .booking) :
      Effect d now r (.cancel u)
        (.transition (.applied (watch.ended .cancelled now) none
          ((r.runtime.map (·.revision + 1)).getD 0)))
        (r.finish (watch.ended .cancelled now) (r.runtime.map (·.finished (now + d))) (now + d))
  /-- An active watch is expired. -/
  | expire {u : String} {expected : Option ℕ} {force : Bool} {watch : Watch}
      (hwatch : r.watch = some watch) (hactive : watch.status = .active)
      (hdue : force = false → watch.isExhausted now = true) :
      Effect d now r (.expire u expected force)
        (.transition (.applied (watch.ended .expired now)
          (eventOf u .expired ((r.runtime.map (·.revision + 1)).getD 0))
          ((r.runtime.map (·.revision + 1)).getD 0)))
        (r.finish (watch.ended .expired now) (r.runtime.map (·.finished (now + d))) (now + d))
  /-- The claim in force is released. -/
  | release {c : WindowClaim} {held : ClaimLease} (hheld : r.claim = some held)
      (htoken : held.token = c.token) (howner : held.ownerId = c.ownerId) :
      Effect d now r (.release c) (.flag true) { r with claim := none }
  /-- A dispatch lease is granted on the current marker. -/
  | claimDispatch {k current : ScheduleMarker} {o : String} {lease : Duration} {watch : Watch}
      (hwatch : r.watch = some watch) (hmarker : r.marker = some current)
      (hactive : watch.status = .active) (hwindow : current.windowId = k.windowId)
      (hfree : ∀ held, r.dispatchLease = some held → held.windowId = k.windowId →
        held.expiresAt ≤ now) :
      Effect d now r (.claimDispatch k o lease)
        (.dispatch (.claimed ⟨k.watchId, k.windowId, current.scheduledFor, o,
          r.dispatchFence.getD 0 + 1, now + lease⟩))
        { r with
          dispatchFence := some (r.dispatchFence.getD 0 + 1)
          dispatchLease := some ⟨k.windowId, o, r.dispatchFence.getD 0 + 1, now + lease⟩ }
  /-- A dispatch lease is extended to the grace time. -/
  | markDispatched {c : DispatchClaim} {after : Time} {held : DispatchLease}
      (hheld : r.dispatchLease = some held) (hgeneration : held.generation = c.generation)
      (howner : held.ownerId = c.ownerId) :
      Effect d now r (.markDispatched c after) (.flag true)
        { r with dispatchLease := some { held with expiresAt := after } }
  /-- A dispatch lease is released. -/
  | releaseDispatch {c : DispatchClaim} {held : DispatchLease}
      (hheld : r.dispatchLease = some held) (hgeneration : held.generation = c.generation)
      (howner : held.ownerId = c.ownerId) :
      Effect d now r (.releaseDispatch c) (.flag true) { r with dispatchLease := none }
  /-- A missing marker is repaired. -/
  | synthesize {u : String} {watch : Watch} {runtime : WatchRuntime} (hwatch : r.watch = some watch)
      (hactive : watch.status = .active) (hmarker : r.marker = none)
      (hfree : ∀ held, r.claim = some held → held.expiresAt ≤ now) :
      Effect d now r (.synthesize u runtime) (.flag (markerOf u runtime).isSome)
        { r with
          runtime := some runtime
          fence := some (r.fence.getD 0)
          marker := markerOf u runtime }

namespace Memory

open Function (update)

/-- Everything a call can do: it has an effect on the row it is about and on no other, or it was
refused and left the store as it was, or it is the bounded cleanup. -/
theorem call_cases (m : Memory) (now : Time) (op : Op) :
    (∃ r, Effect m.retention now (m.row op.target) op (m.call now op).1 r ∧
      (m.call now op).2.row = update m.row op.target r) ∨
    ((m.call now op).1.isApplied = false ∧
      (∀ u, op = .cancel u → ∀ w, (m.call now op).1 ≠ .transition (.notEligible w)) ∧
      (m.call now op).2 = m) ∨
    (∃ due batchSize, op = .cleanup due batchSize ∧
      ∀ v, CleanupStep (m.row v) ((m.call now op).2.row v)) := by
  cases op with
  | create watch runtime =>
    rcases createWithSchedule_cases m watch runtime with ⟨hn, hr, hm⟩ | ⟨⟨w, r, -, hr⟩, hm⟩
    · refine .inl ⟨_, ?_, hm⟩
      simp only [call, Prod.map, hr]
      exact .create hn
    · exact .inr (.inl ⟨by simp [call, hr, Reply.isApplied], by simp, hm⟩)
  | claim u w o lease ignoreSchedule =>
    rcases claimWindow_cases m now u w o lease ignoreSchedule with
      ⟨watch, runtime, hw, hr, ha, hwin, hdue, hfree, hres, hm⟩ | ⟨hres, hm⟩
    · refine .inl ⟨_, ?_, hm⟩
      simp only [call, Prod.map, hres]
      exact .claim hw hr ha hwin hdue hfree
    · refine .inr (.inl ⟨?_, by simp, hm⟩)
      simp only [call, Prod.map]
      generalize (m.claimWindow now u w o lease ignoreSchedule).1 = res at hres
      cases res <;> simp_all [Reply.isApplied]
  | begin c =>
    rcases beginBooking_cases m now c with
      ⟨watch, runtime, hw, hr, ha, hrev, ho, hc, ⟨p, hp⟩, hm⟩ | ⟨hres, hm⟩
    · refine .inl ⟨_, ?_, hm⟩
      simp only [call, Prod.map, hp]
      exact .begin hw hr ha hrev ho hc
    · refine .inr (.inl ⟨?_, by simp, hm⟩)
      simp only [call, Prod.map]
      generalize (m.beginBooking now c).1 = res at hres
      cases res <;> simp_all [Reply.isApplied]
  | commit c nw nr =>
    rcases commitWindow_cases m now c nw nr with
      ⟨watch, runtime, hw, hr, ha, hrev, ho, ⟨hn, hres, hm⟩ | ⟨hn, hres, hm⟩⟩ | ⟨hres, hm⟩
    · refine .inl ⟨_, ?_, hm⟩
      simp only [call, Prod.map, hres]
      exact .reschedule hw hr ha hrev ho hn
    · refine .inl ⟨_, ?_, hm⟩
      simp only [call, Prod.map, hres]
      exact .finish hw hr ha hrev ho hn
    · refine .inr (.inl ⟨?_, by simp, hm⟩)
      simp only [call, Prod.map]
      generalize (m.commitWindow now c nw nr).1 = res at hres
      cases res <;> simp_all [Reply.isApplied, CommitResult.isCommitted]
  | cancel u =>
    rcases cancelIfActive_cases m now u with
      ⟨watch, runtime, hw, hr, ha, hp, hres, hm⟩ | ⟨watch, hw, ha, hp, hres, hm⟩ | ⟨-, he⟩ |
        ⟨watch, -, -, he⟩
    · refine .inl ⟨_, ?_, hm⟩
      simp only [call, Prod.map, hres]
      exact .pend hw hr ha hp
    · refine .inl ⟨_, ?_, hm⟩
      simp only [call, Prod.map, hres]
      exact .cancel hw ha hp
    · exact .inr (.inl ⟨by simp [call, he, Reply.isApplied], by simp [call, he], by simp [call, he]⟩)
    · exact .inr (.inl ⟨by simp [call, he, Reply.isApplied], by simp [call, he], by simp [call, he]⟩)
  | expire u expected force =>
    rcases expireIfEligible_cases m now u expected force with ⟨watch, hw, ha, hf, hres, hm⟩ | ⟨hres, hm⟩
    · refine .inl ⟨_, ?_, hm⟩
      simp only [call, Prod.map, hres]
      exact .expire hw ha hf
    · refine .inr (.inl ⟨?_, by simp, hm⟩)
      simp only [call, Prod.map]
      generalize (m.expireIfEligible now u expected force).1 = res at hres
      cases res <;> simp_all [Reply.isApplied, TransitionResult.isApplied]
  | release c =>
    rcases releaseClaim_cases m c with ⟨⟨held, hh, ht, ho⟩, hres, hm⟩ | ⟨hres, hm⟩
    · refine .inl ⟨_, ?_, hm⟩
      simp only [call, Prod.map, hres]
      exact .release hh ht ho
    · exact .inr (.inl ⟨by simp [call, hres, Reply.isApplied], by simp, hm⟩)
  | claimDispatch k o lease =>
    rcases claimDispatch_cases m now k o lease with
      ⟨watch, current, hw, hk, ha, hwin, hfree, hres, hm⟩ | ⟨hres, hm⟩
    · refine .inl ⟨_, ?_, hm⟩
      simp only [call, Prod.map, hres]
      exact .claimDispatch hw hk ha hwin hfree
    · refine .inr (.inl ⟨?_, by simp, hm⟩)
      simp only [call, Prod.map]
      generalize (m.claimDispatch now k o lease).1 = res at hres
      cases res <;> simp_all [Reply.isApplied]
  | markDispatched c after =>
    rcases markDispatched_cases m c after with ⟨held, hh, hg, ho, hres, hm⟩ | ⟨hres, hm⟩
    · refine .inl ⟨_, ?_, hm⟩
      simp only [call, Prod.map, hres]
      exact .markDispatched hh hg ho
    · exact .inr (.inl ⟨by simp [call, hres, Reply.isApplied], by simp, hm⟩)
  | releaseDispatch c =>
    rcases releaseDispatch_cases m c with ⟨⟨held, hh, hg, ho⟩, hres, hm⟩ | ⟨hres, hm⟩
    · refine .inl ⟨_, ?_, hm⟩
      simp only [call, Prod.map, hres]
      exact .releaseDispatch hh hg ho
    · exact .inr (.inl ⟨by simp [call, hres, Reply.isApplied], by simp, hm⟩)
  | synthesize u runtime =>
    rcases synthesizeMarker_cases m now u runtime with ⟨watch, hw, ha, hk, hfree, hres, hm⟩ | ⟨hres, hm⟩
    · refine .inl ⟨_, ?_, hm⟩
      simp only [call, Prod.map, hres]
      exact .synthesize hw ha hk hfree
    · exact .inr (.inl ⟨by simp [call, hres, Reply.isApplied], by simp, hm⟩)
  | cleanup due batchSize => exact .inr (.inr ⟨due, batchSize, rfl, cleanupDue_step m due batchSize⟩)

end Memory

/-- The state of a run: the tables, the clock, and the calls so far, newest first. -/
structure Store where
  mem : Memory
  now : Time
  log : List Entry
deriving DecidableEq

namespace Store

/-- What the tables hold under a watch id. -/
def row (s : Store) (u : String) : Row := s.mem.row u

/-- The store after a call. -/
def call (s : Store) (op : Op) : Store :=
  let r := s.mem.call s.now op
  ⟨r.2, s.now, ⟨s.now, op, r.1⟩ :: s.log⟩

/-- What a call returns. -/
def reply (s : Store) (op : Op) : Reply := (s.mem.call s.now op).1

@[simp]
theorem call_now (s : Store) (op : Op) : (s.call op).now = s.now := rfl

@[simp]
theorem call_log (s : Store) (op : Op) :
    (s.call op).log = ⟨s.now, op, s.reply op⟩ :: s.log := rfl

/-- Everything a call can do to the row of one watch: it is about this watch and has an effect, or
it leaves the row alone (and, if it is about this watch, was refused), or it is the bounded
cleanup. -/
theorem row_call (s : Store) (op : Op) (u : String) :
    (op.target = u ∧ Effect s.mem.retention s.now (s.row u) op (s.reply op) ((s.call op).row u)) ∨
    ((s.call op).row u = s.row u ∧ (op.target = u → (s.reply op).isApplied = false ∧
      (op = .cancel u → ∀ w, s.reply op ≠ .transition (.notEligible w)))) ∨
    ((∃ due batchSize, op = .cleanup due batchSize) ∧
      Memory.CleanupStep (s.row u) ((s.call op).row u)) := by
  rcases s.mem.call_cases s.now op with ⟨r, he, hr⟩ | ⟨hn, hp, hm⟩ | ⟨due, batchSize, hop, hc⟩
  · have hrow : (s.call op).row u = Function.update s.mem.row op.target r u := congrFun hr u
    by_cases h : op.target = u
    · subst h
      rw [Function.update_self] at hrow
      rw [hrow]
      exact .inl ⟨rfl, he⟩
    · rw [Function.update_of_ne (Ne.symm h)] at hrow
      exact .inr (.inl ⟨hrow, fun h' => absurd h' h⟩)
  · exact .inr (.inl ⟨congrArg (Memory.row · u) hm, fun _ => ⟨hn, hp u⟩⟩)
  · exact .inr (.inr ⟨⟨due, batchSize, hop⟩, hc u⟩)

/-- A call leaves the rows of the other watches alone, unless it is the bounded cleanup. -/
theorem row_call_of_ne {s : Store} {op : Op} {u : String} (h : op.target ≠ u)
    (hcleanup : op.isCleanup = false) : (s.call op).row u = s.row u := by
  rcases s.row_call op u with ⟨ht, -⟩ | ⟨hrow, -⟩ | ⟨⟨due, batchSize, rfl⟩, -⟩
  · exact absurd ht h
  · exact hrow
  · contradiction

/-- A call that was applied had an effect on the row it is about. -/
theorem effect_of_applied {s : Store} {op : Op} (h : (s.reply op).isApplied = true) :
    ∃ r, (s.call op).row op.target = r ∧
      Effect s.mem.retention s.now (s.row op.target) op (s.reply op) r := by
  rcases s.row_call op op.target with ⟨-, he⟩ | ⟨-, hn⟩ | ⟨⟨due, batchSize, rfl⟩, -⟩
  · exact ⟨_, rfl, he⟩
  · rw [(hn rfl).1] at h
    contradiction
  · simp [reply, Memory.call, Reply.isApplied] at h

/-- A call with a result that says it was applied had an effect with this result. -/
theorem effect_of_reply {s : Store} {op : Op} {reply : Reply} (h : s.reply op = reply)
    (happ : reply.isApplied = true) : ∃ r, (s.call op).row op.target = r ∧
      Effect s.mem.retention s.now (s.row op.target) op reply r := by
  subst h
  exact effect_of_applied happ

end Store

/-- The claim that a call issued. -/
def Entry.claimed (e : Entry) : Option WindowClaim :=
  match e.reply with
  | .claim (.owned c) => some c
  | _ => none

/-- The watch id that a call stored a new watch under. -/
def Entry.created (e : Entry) : Option String :=
  match e.reply with
  | .create (.created w _) => some w.watchId
  | _ => none

namespace Store

/-- The claims issued so far, newest first. -/
def issued (s : Store) : List WindowClaim := s.log.filterMap Entry.claimed

/-- The claims issued so far for one watch, newest first. -/
def issuedFor (s : Store) (u : String) : List WindowClaim :=
  s.issued.filter fun c => decide (c.watch.watchId = u)

/-- The watch ids created so far. -/
def created (s : Store) : List String := s.log.filterMap Entry.created

theorem mem_issuedFor {s : Store} {u : String} {c : WindowClaim} :
    c ∈ s.issuedFor u ↔ c ∈ s.issued ∧ c.watch.watchId = u := by
  simp [issuedFor]

end Store

/-- A step of the store: the clock moves, or a client calls a method. -/
inductive StoreLabel
  | tick (now : Time)
  | call (op : Op)

/-- The machine of an in-memory store, empty at first, under a condition on the calls. -/
def storeMachine (ok : Store → Op → Prop) : Machine Store StoreLabel where
  init s := ∃ retention, s.mem = Memory.empty retention ∧ s.log = []
  allowed s
    | .tick now => s.now ≤ now
    | .call op => ok s op
  exec
    | .tick now, s => { s with now := now }
    | .call op, s => s.call op

instance (ok : Store → Op → Prop) [∀ s op, Decidable (ok s op)] (s : Store) :
    DecidablePred ((storeMachine ok).allowed s)
  | .tick now => inferInstanceAs (Decidable (s.now ≤ now))
  | .call op => inferInstanceAs (Decidable (ok s op))

/-- What every caller of the repository respects: a claim it presents was issued by the store, and
a commit keeps the watch's id in the document. -/
def Presented (s : Store) : Op → Prop
  | .begin c | .release c => c ∈ s.issued
  | .commit c nw _ => c ∈ s.issued ∧ nw.watchId = c.watch.watchId
  | _ => True

/-- An id whose watch was cleaned up is not used for another watch. -/
def Fresh (s : Store) : Op → Prop
  | .create watch _ => (s.row watch.watchId).watch = none → watch.watchId ∉ s.created
  | _ => True

/-- Calls as every caller makes them. -/
def Lawful (s : Store) (op : Op) : Prop := Presented s op ∧ Fresh s op

instance (s : Store) : DecidablePred (Presented s)
  | .begin _ | .release _ => inferInstanceAs (Decidable (_ ∈ _))
  | .commit _ _ _ => inferInstanceAs (Decidable (_ ∧ _))
  | .create _ _ | .claim _ _ _ _ _ | .cancel _ | .expire _ _ _ | .claimDispatch _ _ _
  | .markDispatched _ _ | .releaseDispatch _ | .synthesize _ _ | .cleanup _ _ =>
    inferInstanceAs (Decidable True)

/-- The invariant rule for one watch: what holds of a vacant row, and is kept when the clock moves,
by every effect and by cleanup, holds of every row of every reachable state. -/
theorem Store.row_invariant {ok : Store → Op → Prop} {P : String → Time → Row → Prop}
    (h0 : ∀ u now, P u now Row.vacant)
    (htick : ∀ {u now now' r}, P u now r → now ≤ now' → P u now' r)
    (heffect : ∀ {s op u r}, (storeMachine ok).Reach s → ok s op → op.target = u →
      P u s.now (s.row u) → Effect s.mem.retention s.now (s.row u) op (s.reply op) r → P u s.now r)
    (hcleanup : ∀ {u now r r'}, P u now r → Memory.CleanupStep r r' → P u now r')
    {s : Store} (h : (storeMachine ok).Reach s) (u : String) : P u s.now (s.row u) := by
  refine Machine.Reach.invariant (P := fun s => ∀ u, P u s.now (s.row u)) ?_ ?_ h u
  · rintro s ⟨d, hm, -⟩ u
    have hv : s.row u = Row.vacant := by rw [Store.row, hm, Memory.row_empty]
    rw [hv]
    exact h0 u s.now
  · intro s i hr ih ha u
    cases i with
    | tick now => exact htick (ih u) ha
    | call op =>
      change P u s.now ((s.call op).row u)
      rcases s.row_call op u with ⟨ht, he⟩ | ⟨hrow, -⟩ | ⟨-, hc⟩
      · exact heffect hr ha ht (ih u) he
      · rw [hrow]
        exact ih u
      · exact hcleanup (ih u) hc

/-- What is reachable under a condition on the calls is reachable under a weaker one. -/
theorem Store.reach_mono {ok ok' : Store → Op → Prop}
    (h : ∀ s op, (storeMachine ok).Reach s → ok s op → ok' s op) {s : Store}
    (hr : (storeMachine ok).Reach s) : (storeMachine ok').Reach s := by
  refine Machine.Reach.map (M := storeMachine ok) (N := storeMachine ok') (f := id)
    (fun _ h0 => h0) (fun s i hr _ ha => ?_) hr
  refine .single ⟨i, ?_, rfl⟩
  cases i with
  | tick now => exact ha
  | call op => exact h s op hr ha

end Dibs
