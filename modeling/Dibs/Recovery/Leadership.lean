import Dibs.Lib.Machine
import Dibs.Recovery.Candidates

/-!
# Who writes during recovery

Any number of `RecoveryCoordinator`s over one leader lease, interleaved at their store calls. The lease
is the key `dibs:recovery:leader`; its native time to live removes it, whatever the passes do. What the
store and the queue answer is part of a label, the leader scripts apart.

A pass takes the lease once, at its start, and does not look at it again. So it writes as the leader
exactly until the lease it took runs out (`leads_iff`), however long the pass goes on.
-/

namespace Dibs

/-- The configuration of a coordinator. -/
structure Coordinator where
  ownerId : String
  leaderLeaseSeconds : ℚ
  earliestDelaySeconds : ℚ
  /-- Whether there is a mock state to clean up. -/
  hasMockState : Bool

/-- `max(1, int(lease_seconds * 1000))`. -/
def Coordinator.leaseMs (c : Coordinator) : ℤ := max 1 (truncate (c.leaderLeaseSeconds * 1000))

/-- A store call of `_reconcile_one`. -/
inductive RepairCall
  | prune (watchId : String) (fromAll : Bool)
  /-- `expire_if_eligible` reads the document. -/
  | expireGet (watchId : String)
  /-- It reads the sidecar. -/
  | expireRuntime (watchId : String)
  /-- It runs its script. -/
  | expireScript (watchId : String)
  | synthesize (watchId : String) (runtime : WatchRuntime)
deriving DecidableEq

/-- A coordinator at an await. `held` is when the lease that the pass took runs out, by the server's
clock; no step looks at it. -/
inductive PassPoint
  /-- There is no pass. -/
  | idle
  /-- `_hold_leadership`, before `renew_leadership`. -/
  | renewing
  /-- `_hold_leadership`, before `acquire_leadership`. -/
  | acquiring
  /-- `_run_pass`, before `list_recovery_candidates`; with the instant the pass started. -/
  | listing (held : ℤ) (now : Time)
  /-- `_reconcile_one`, before a store call, with the candidates that are left. -/
  | repairing (held : ℤ) (now : Time) (call : RepairCall) (rest : List RecoveryCandidate)
  /-- `dispatch_due`, before `due_schedule_markers`. -/
  | sweeping (held : ℤ) (now : Time)
  /-- `_dispatch_one`, before `claim_dispatch`. -/
  | claiming (held : ℤ) (now : Time) (marker : ScheduleMarker) (rest : List ScheduleMarker)
  /-- `_dispatch_one`, before `enqueue_watch_poll`. -/
  | publishing (held : ℤ) (now : Time) (claim : DispatchClaim) (rest : List ScheduleMarker)
  /-- `_dispatch_one`, before `mark_dispatched`. -/
  | marking (held : ℤ) (now : Time) (claim : DispatchClaim) (rest : List ScheduleMarker)
  /-- `_dispatch_one`, before `release_dispatch`. -/
  | releasing (held : ℤ) (now : Time) (claim : DispatchClaim) (rest : List ScheduleMarker)
  /-- `_run_cleanup`, before `cleanup_due`. -/
  | cleaning (held : ℤ) (now : Time)
  /-- `_run_cleanup`, before the cleanup of the mock state. -/
  | mockCleaning (held : ℤ) (now : Time)
deriving DecidableEq

/-- What the environment contributes to a step of a pass. -/
inductive PassInput
  /-- The call did what it was asked. -/
  | proceed
  /-- The call was not executed. -/
  | raised
  /-- The call was executed and its answer was lost. -/
  | lost
  /-- The instant that the pass starts at, by the clock of its process. -/
  | started (now : Time)
  | candidates (candidates : List RecoveryCandidate)
  /-- Whether `expire_if_eligible` goes on after a read. -/
  | eligible (goesOn : Bool)
  | markers (markers : List ScheduleMarker)
  | dispatch (result : DispatchResult)
deriving DecidableEq

/-- The leader lease as the scripts and `SET` leave it: the owner it names, and when it runs out. -/
abbrev LeaderLease := Option (String × ℤ)

/-- `GET` of the leader key: a key whose time to live has run out is gone. -/
def LeaderLease.holder (lease : LeaderLease) (nowMs : ℤ) : Option String :=
  (lease.filter fun l => nowMs < l.2).map Prod.fst

/-- `RENEW_LEADER`. -/
def LeaderLease.renew (lease : LeaderLease) (nowMs : ℤ) (ownerId : String) (leaseMs : ℤ) :
    Bool × LeaderLease :=
  if lease.holder nowMs = some ownerId then (true, some (ownerId, nowMs + leaseMs)) else (false, lease)

/-- `SET NX PX`. -/
def LeaderLease.acquire (lease : LeaderLease) (nowMs : ℤ) (ownerId : String) (leaseMs : ℤ) :
    Bool × LeaderLease :=
  if lease.holder nowMs = none then (true, some (ownerId, nowMs + leaseMs)) else (false, lease)

/-- `RELEASE_LEADER`. -/
def LeaderLease.release (lease : LeaderLease) (nowMs : ℤ) (ownerId : String) : LeaderLease :=
  if lease.holder nowMs = some ownerId then none else lease

/-- The next store call for the candidates that are left, or the dispatch sweep. -/
def nextRepair (earliestDelaySeconds : ℚ) (held : ℤ) (now : Time) : List RecoveryCandidate → PassPoint
  | [] => .sweeping held now
  | candidate :: rest =>
    match reconcileAction earliestDelaySeconds candidate now with
    | some (.prune fromAll) => .repairing held now (.prune candidate.watchId fromAll) rest
    | some .expire => .repairing held now (.expireGet candidate.watchId) rest
    | some (.synthesize runtime) => .repairing held now (.synthesize candidate.watchId runtime) rest
    | some .deferred | some .preserved | none => nextRepair earliestDelaySeconds held now rest

/-- The next marker, or the cleanup. -/
def nextDispatch (held : ℤ) (now : Time) : List ScheduleMarker → PassPoint
  | [] => .cleaning held now
  | marker :: rest => .claiming held now marker rest

/-- What follows `cleanup_due`. -/
def afterCleanup (c : Coordinator) (held : ℤ) (now : Time) : PassPoint :=
  if c.hasMockState then .mockCleaning held now else .idle

/-- The next await of a pass after a call that is not one of the lease. -/
def PassPoint.next (c : Coordinator) (input : PassInput) : PassPoint → Option PassPoint
  | .listing held now =>
    match input with
    | .candidates candidates => some (nextRepair c.earliestDelaySeconds held now candidates)
    | .raised | .lost => some .idle
    | _ => none
  | .repairing held now call rest =>
    let done := nextRepair c.earliestDelaySeconds held now rest
    match call, input with
    | .expireGet u, .eligible true => some (.repairing held now (.expireRuntime u) rest)
    | .expireRuntime u, .eligible true => some (.repairing held now (.expireScript u) rest)
    | .expireGet _, .eligible false | .expireRuntime _, .eligible false => some done
    | .prune _ _, .proceed | .expireScript _, .proceed | .synthesize _ _, .proceed => some done
    | _, .raised | _, .lost => some done
    | _, _ => none
  | .sweeping held now =>
    match input with
    | .markers markers => some (nextDispatch held now markers)
    | .raised | .lost => some (.cleaning held now)
    | _ => none
  | .claiming held now _ rest =>
    match input with
    | .dispatch (.claimed claim) => some (.publishing held now claim rest)
    | .dispatch .busy | .dispatch .stale => some (nextDispatch held now rest)
    | .raised | .lost => some (.cleaning held now)
    | _ => none
  | .publishing held now claim rest =>
    match input with
    | .proceed => some (.marking held now claim rest)
    | .raised | .lost => some (.releasing held now claim rest)
    | _ => none
  | .marking held now _ rest | .releasing held now _ rest =>
    match input with
    | .proceed => some (nextDispatch held now rest)
    | .raised | .lost => some (.cleaning held now)
    | _ => none
  | .cleaning held now =>
    match input with
    | .proceed | .raised | .lost => some (afterCleanup c held now)
    | _ => none
  | .mockCleaning _ _ =>
    match input with
    | .proceed | .raised | .lost => some .idle
    | _ => none
  | .idle | .renewing | .acquiring => none

/-- When the lease that a pass took runs out. -/
def PassPoint.held : PassPoint → Option ℤ
  | .listing held _ | .repairing held _ _ _ | .sweeping held _ | .claiming held _ _ _
  | .publishing held _ _ _ | .marking held _ _ _ | .releasing held _ _ _ | .cleaning held _
  | .mockCleaning held _ => some held
  | .idle | .renewing | .acquiring => none

/-- Whether the call of a pass changes the store or publishes. -/
def PassPoint.isWrite : PassPoint → Bool
  | .repairing _ _ (.expireGet _) _ | .repairing _ _ (.expireRuntime _) _ => false
  | .repairing _ _ _ _ | .claiming _ _ _ _ | .publishing _ _ _ _ | .marking _ _ _ _
  | .releasing _ _ _ _ | .cleaning _ _ | .mockCleaning _ _ => true
  | .idle | .renewing | .acquiring | .listing _ _ | .sweeping _ _ => false

/-- The coordinators: the server's clock in milliseconds, the lease and the passes. -/
structure Recovery where
  nowMs : ℤ
  lease : LeaderLease
  points : ℕ → PassPoint

/-- A step of the coordinators. -/
inductive RecoveryLabel
  | tick (nowMs : ℤ)
  /-- `reconcile_once`. -/
  | begin (i : ℕ)
  | step (i : ℕ) (input : PassInput)
  /-- A pass ends where it stands: it is cancelled, or its process dies. -/
  | abandon (i : ℕ)
  /-- `release`. -/
  | release (i : ℕ)
deriving DecidableEq

namespace Recovery

/-- The lease and the pass after a call of the lease: a coordinator that gets it starts its scan. -/
def leaseReply (s : Recovery) (c : Coordinator) (out : Bool × LeaderLease) (refused : PassPoint) :
    PassInput → Option (LeaderLease × PassPoint)
  | .started now => some (out.2, if out.1 then .listing (s.nowMs + c.leaseMs) now else refused)
  | .raised => some (s.lease, .idle)
  | .lost => some (out.2, .idle)
  | _ => none

/-- The lease and the pass after a call. -/
def call (s : Recovery) (c : Coordinator) (input : PassInput) : PassPoint → Option (LeaderLease × PassPoint)
  | .renewing => s.leaseReply c (s.lease.renew s.nowMs c.ownerId c.leaseMs) .acquiring input
  | .acquiring => s.leaseReply c (s.lease.acquire s.nowMs c.ownerId c.leaseMs) .idle input
  | point => (point.next c input).map fun point => (s.lease, point)

end Recovery

/-- The machine of the coordinators. -/
def recoveryMachine (cs : ℕ → Coordinator) : Machine Recovery RecoveryLabel where
  init s := s.lease = none ∧ ∀ i, s.points i = .idle
  allowed s
    | .tick nowMs => s.nowMs ≤ nowMs
    | .begin i => s.points i = .idle
    | .step i input => (s.call (cs i) input (s.points i)).isSome = true
    | .abandon _ => True
    | .release i => s.points i = .idle
  exec
    | .tick nowMs, s => { s with nowMs := nowMs }
    | .begin i, s => { s with points := Function.update s.points i .renewing }
    | .step i input, s =>
      match s.call (cs i) input (s.points i) with
      | some (lease, point) => { s with lease := lease, points := Function.update s.points i point }
      | none => s
    | .abandon i, s => { s with points := Function.update s.points i .idle }
    | .release i, s => { s with lease := s.lease.release s.nowMs (cs i).ownerId }

instance (cs : ℕ → Coordinator) (s : Recovery) : DecidablePred ((recoveryMachine cs).allowed s)
  | .tick nowMs => inferInstanceAs (Decidable (s.nowMs ≤ nowMs))
  | .begin i => inferInstanceAs (Decidable (s.points i = .idle))
  | .step i input => inferInstanceAs (Decidable ((s.call (cs i) input (s.points i)).isSome = true))
  | .abandon _ => inferInstanceAs (Decidable True)
  | .release i => inferInstanceAs (Decidable (s.points i = .idle))

/-- The lease that a renewal leaves: the owner's, for the full time, or the one that was there. -/
theorem LeaderLease.renew_cases (lease : LeaderLease) (nowMs : ℤ) (ownerId : String) (leaseMs : ℤ) :
    (lease.holder nowMs = some ownerId ∧
      lease.renew nowMs ownerId leaseMs = (true, some (ownerId, nowMs + leaseMs))) ∨
    lease.renew nowMs ownerId leaseMs = (false, lease) := by
  unfold renew
  split_ifs with h
  · exact .inl ⟨h, rfl⟩
  · exact .inr rfl

/-- The lease that an acquisition leaves. -/
theorem LeaderLease.acquire_cases (lease : LeaderLease) (nowMs : ℤ) (ownerId : String) (leaseMs : ℤ) :
    (lease.holder nowMs = none ∧
      lease.acquire nowMs ownerId leaseMs = (true, some (ownerId, nowMs + leaseMs))) ∨
    lease.acquire nowMs ownerId leaseMs = (false, lease) := by
  unfold acquire
  split_ifs with h
  · exact .inl ⟨h, rfl⟩
  · exact .inr rfl

/-- The holder of a lease is the owner it names, while it runs. -/
theorem LeaderLease.holder_eq_some {lease : LeaderLease} {nowMs : ℤ} {ownerId : String} :
    lease.holder nowMs = some ownerId ↔ ∃ expires, lease = some (ownerId, expires) ∧ nowMs < expires := by
  cases lease with
  | none => simp [holder]
  | some l =>
    obtain ⟨owner, expires⟩ := l
    by_cases h : nowMs < expires
    · simp [holder, h]
    · simp [holder, h]

/-- A pass goes on under the lease that it took. -/
theorem nextRepair_held (earliestDelaySeconds : ℚ) (held : ℤ) (now : Time)
    (candidates : List RecoveryCandidate) :
    (nextRepair earliestDelaySeconds held now candidates).held = some held := by
  induction candidates with
  | nil => rfl
  | cons candidate rest ih =>
    unfold nextRepair
    split
    · rfl
    · rfl
    · rfl
    all_goals exact ih

theorem nextDispatch_held (held : ℤ) (now : Time) (markers : List ScheduleMarker) :
    (nextDispatch held now markers).held = some held := by
  cases markers <;> rfl

theorem afterCleanup_held (c : Coordinator) (held : ℤ) (now : Time) :
    (afterCleanup c held now).held = some held ∨ afterCleanup c held now = .idle := by
  unfold afterCleanup
  split_ifs
  · exact .inl rfl
  · exact .inr rfl

/-- A call that is not one of the lease leaves the pass under its lease, or ends it. -/
theorem PassPoint.next_held {c : Coordinator} {input : PassInput} {point point' : PassPoint}
    (h : point.next c input = some point') : point'.held = point.held ∨ point' = .idle := by
  cases point with
  | idle | renewing | acquiring => contradiction
  | _ =>
    simp only [next] at h
    split at h <;>
      first
      | contradiction
      | obtain rfl := Option.some.inj h
        first
        | exact .inl rfl
        | exact .inr rfl
        | exact .inl (nextRepair_held ..)
        | exact .inl (nextDispatch_held ..)
        | exact afterCleanup_held ..

namespace Recovery

open Function (update_self update_of_ne)

variable {cs : ℕ → Coordinator}

/-- What the lease says of the passes: until the time that a pass took it for it is the pass's own, and
the owner of a pass has no other. -/
structure Inv (cs : ℕ → Coordinator) (s : Recovery) : Prop where
  /-- The lease that a pass took is there until it runs out. -/
  leads : ∀ i held, (s.points i).held = some held → s.nowMs < held →
    s.lease = some ((cs i).ownerId, held)
  /-- The lease of a pass's owner is the one that the pass took. -/
  own : ∀ i held expires, (s.points i).held = some held → s.lease = some ((cs i).ownerId, expires) →
    expires = held

/-- A call of the lease leaves it alone, or the coordinator takes it for the full time. -/
theorem leaseReply_cases {s : Recovery} {c : Coordinator} {out : Bool × LeaderLease} {refused : PassPoint}
    (hout : out = (true, some (c.ownerId, s.nowMs + c.leaseMs)) ∨ out = (false, s.lease))
    (hrefused : refused.held = none) {input : PassInput} {lease : LeaderLease} {point : PassPoint}
    (h : s.leaseReply c out refused input = some (lease, point)) :
    (lease = s.lease ∧ point.held = none) ∨
    (out.1 = true ∧ lease = some (c.ownerId, s.nowMs + c.leaseMs) ∧
      (point.held = some (s.nowMs + c.leaseMs) ∨ point.held = none)) := by
  unfold leaseReply at h
  rcases hout with rfl | rfl
  · split at h
    · obtain ⟨rfl, rfl⟩ := Prod.mk.inj (Option.some.inj h)
      exact .inr ⟨rfl, rfl, .inl rfl⟩
    · obtain ⟨rfl, rfl⟩ := Prod.mk.inj (Option.some.inj h)
      exact .inl ⟨rfl, rfl⟩
    · obtain ⟨rfl, rfl⟩ := Prod.mk.inj (Option.some.inj h)
      exact .inr ⟨rfl, rfl, .inr rfl⟩
    · contradiction
  · split at h
    · obtain ⟨rfl, rfl⟩ := Prod.mk.inj (Option.some.inj h)
      exact .inl ⟨rfl, hrefused⟩
    · obtain ⟨rfl, rfl⟩ := Prod.mk.inj (Option.some.inj h)
      exact .inl ⟨rfl, rfl⟩
    · obtain ⟨rfl, rfl⟩ := Prod.mk.inj (Option.some.inj h)
      exact .inl ⟨rfl, rfl⟩
    · contradiction

/-- What a call does to the lease and to the pass: the lease stays and the pass goes on under it or
ends, or the coordinator takes the lease, which named it or nobody, for the full time. -/
theorem call_cases {s : Recovery} {c : Coordinator} {input : PassInput} {old point : PassPoint}
    {lease : LeaderLease} (h : s.call c input old = some (lease, point)) :
    (lease = s.lease ∧ (point.held = old.held ∨ point.held = none)) ∨
    ((s.lease.holder s.nowMs = some c.ownerId ∨ s.lease.holder s.nowMs = none) ∧
      lease = some (c.ownerId, s.nowMs + c.leaseMs) ∧
      (point.held = some (s.nowMs + c.leaseMs) ∨ point.held = none)) := by
  cases old with
  | renewing =>
    rcases s.lease.renew_cases s.nowMs c.ownerId c.leaseMs with ⟨hholder, hout⟩ | hout
    · rcases leaseReply_cases (.inl hout) rfl h with ⟨hlease, hheld⟩ | ⟨-, hlease, hheld⟩
      · exact .inl ⟨hlease, .inr hheld⟩
      · exact .inr ⟨.inl hholder, hlease, hheld⟩
    · rcases leaseReply_cases (.inr hout) rfl h with ⟨hlease, hheld⟩ | ⟨htrue, -⟩
      · exact .inl ⟨hlease, .inr hheld⟩
      · rw [hout] at htrue
        contradiction
  | acquiring =>
    rcases s.lease.acquire_cases s.nowMs c.ownerId c.leaseMs with ⟨hholder, hout⟩ | hout
    · rcases leaseReply_cases (.inl hout) rfl h with ⟨hlease, hheld⟩ | ⟨-, hlease, hheld⟩
      · exact .inl ⟨hlease, .inr hheld⟩
      · exact .inr ⟨.inr hholder, hlease, hheld⟩
    · rcases leaseReply_cases (.inr hout) rfl h with ⟨hlease, hheld⟩ | ⟨htrue, -⟩
      · exact .inl ⟨hlease, .inr hheld⟩
      · rw [hout] at htrue
        contradiction
  | _ =>
    simp only [call] at h
    obtain ⟨point', hnext, heq⟩ := Option.map_eq_some_iff.mp h
    obtain ⟨rfl, rfl⟩ := Prod.mk.inj heq
    rcases PassPoint.next_held hnext with hheld | rfl
    · exact .inl ⟨rfl, .inl hheld⟩
    · exact .inl ⟨rfl, .inr rfl⟩

/-- A pass that is replaced by one without a lease has nothing to say. -/
theorem Inv.update {s : Recovery} (h : s.Inv cs) {i : ℕ} {point : PassPoint}
    (hpoint : point.held = (s.points i).held ∨ point.held = none) :
    Inv cs { s with points := Function.update s.points i point } := by
  have hheld : ∀ j held, (Function.update s.points i point j).held = some held →
      (s.points j).held = some held := by
    intro j held hj
    by_cases hji : j = i
    · subst hji
      rw [update_self] at hj
      rcases hpoint with hsame | hnone
      · rw [← hsame, hj]
      · rw [hnone] at hj
        contradiction
    · rwa [update_of_ne hji] at hj
  exact ⟨fun j held hj => h.leads j held (hheld j held hj),
    fun j held expires hj => h.own j held expires (hheld j held hj)⟩

/-- No two coordinators have one owner id. -/
def DistinctOwners (cs : ℕ → Coordinator) : Prop := ∀ i j, (cs i).ownerId = (cs j).ownerId → i = j

/-- A coordinator that takes the lease takes it from no pass of another one. -/
theorem Inv.take {s : Recovery} (h : s.Inv cs) (hids : DistinctOwners cs) {i : ℕ}
    (hfree : s.lease.holder s.nowMs = some (cs i).ownerId ∨ s.lease.holder s.nowMs = none)
    {point : PassPoint}
    (hpoint : point.held = some (s.nowMs + (cs i).leaseMs) ∨ point.held = none) :
    Inv cs { s with
      lease := some ((cs i).ownerId, s.nowMs + (cs i).leaseMs)
      points := Function.update s.points i point } := by
  refine ⟨fun j held hheld hnow => ?_, fun j held expires hheld hlease => ?_⟩
  · change (Function.update s.points i point j).held = some held at hheld
    by_cases hji : j = i
    · subst hji
      rw [update_self] at hheld
      rcases hpoint with hpoint | hpoint <;> rw [hpoint] at hheld
      · obtain rfl := Option.some.inj hheld
        rfl
      · contradiction
    · -- The lease of another pass is still running, so the coordinator did not get it.
      rw [update_of_ne hji] at hheld
      have hholder : s.lease.holder s.nowMs = some (cs j).ownerId :=
        LeaderLease.holder_eq_some.mpr ⟨held, h.leads j held hheld hnow, hnow⟩
      rcases hfree with hfree | hfree <;> rw [hholder] at hfree
      · exact absurd (hids j i (Option.some.inj hfree)) hji
      · contradiction
  · change (Function.update s.points i point j).held = some held at hheld
    obtain ⟨howner, rfl⟩ := Prod.mk.inj (Option.some.inj hlease)
    obtain rfl := hids i j howner
    rw [update_self] at hheld
    rcases hpoint with hpoint | hpoint <;> rw [hpoint] at hheld
    · exact Option.some.inj hheld
    · contradiction

/-- Every step keeps the lease in line with the passes. -/
theorem Inv.exec {s : Recovery} (h : s.Inv cs) (hids : DistinctOwners cs) {label : RecoveryLabel}
    (ha : (recoveryMachine cs).allowed s label) : Inv cs ((recoveryMachine cs).exec label s) := by
  cases label with
  | tick nowMs => exact ⟨fun i held hheld hnow => h.leads i held hheld (lt_of_le_of_lt ha hnow), h.own⟩
  | begin i => exact h.update (.inr rfl)
  | abandon i => exact h.update (.inr rfl)
  | step i input =>
    obtain ⟨⟨lease, point⟩, hcall⟩ := Option.isSome_iff_exists.mp ha
    have hexec : (recoveryMachine cs).exec (.step i input) s =
        { s with lease := lease, points := Function.update s.points i point } := by
      simp only [recoveryMachine, hcall]
    rw [hexec]
    rcases call_cases hcall with ⟨rfl, hheld⟩ | ⟨hfree, rfl, hheld⟩
    · exact h.update hheld
    · exact h.take hids hfree hheld
  | release i =>
    change Inv cs { s with lease := s.lease.release s.nowMs (cs i).ownerId }
    unfold LeaderLease.release
    split_ifs with hholder
    · -- Only the coordinator itself releases its lease, and it has no pass.
      refine ⟨fun j held hheld hnow => ?_, fun j held expires hheld hlease => absurd hlease (by simp)⟩
      have hj : s.lease.holder s.nowMs = some (cs j).ownerId :=
        LeaderLease.holder_eq_some.mpr ⟨held, h.leads j held hheld hnow, hnow⟩
      obtain rfl := hids i j (Option.some.inj (hholder.symm.trans hj))
      have hidle : s.points i = .idle := ha
      change (s.points i).held = some held at hheld
      rw [hidle] at hheld
      contradiction
    · exact ⟨h.leads, h.own⟩

/-- In every reachable state the lease is in line with the passes. -/
theorem inv (hids : DistinctOwners cs) {s : Recovery} (h : (recoveryMachine cs).Reach s) : s.Inv cs := by
  refine h.invariant ?_ fun s label _ ih ha => ih.exec hids ha
  rintro s ⟨hlease, hidle⟩
  refine ⟨fun i held hheld => ?_, fun i held expires hheld => ?_⟩ <;>
  · rw [hidle i] at hheld
    contradiction

/-- A pass makes a call that changes the store or publishes, and the call is executed. -/
def Writes (s : Recovery) (i : ℕ) (label : RecoveryLabel) : Prop :=
  (s.points i).isWrite = true ∧ ∃ input, label = .step i input ∧ input ≠ .raised

/-- The writes of a step are those of the leader. -/
def Led (cs : ℕ → Coordinator) (s : Recovery) (label : RecoveryLabel) : Prop :=
  ∀ i, s.Writes i label → s.lease.holder s.nowMs = some (cs i).ownerId

/-- The writes of a step come before the lease that the pass took at its start has run out. -/
def InTime (s : Recovery) (label : RecoveryLabel) : Prop :=
  ∀ i held, s.Writes i label → (s.points i).held = some held → s.nowMs < held

/-- A pass at a write has taken its lease. -/
theorem held_of_isWrite {point : PassPoint} (h : point.isWrite = true) :
    ∃ held, point.held = some held := by
  cases point with
  | idle | renewing | acquiring => contradiction
  | _ => exact ⟨_, rfl⟩

/-- In a reachable state a pass is the leader exactly until the lease that it took runs out. -/
theorem leads_iff (hids : DistinctOwners cs) {s : Recovery} (h : (recoveryMachine cs).Reach s) {i : ℕ}
    {held : ℤ} (hheld : (s.points i).held = some held) :
    s.lease.holder s.nowMs = some (cs i).ownerId ↔ s.nowMs < held := by
  have hinv := inv hids h
  constructor
  · intro hholder
    obtain ⟨expires, hlease, hnow⟩ := LeaderLease.holder_eq_some.mp hholder
    rwa [hinv.own i held expires hheld hlease] at hnow
  · intro hnow
    exact LeaderLease.holder_eq_some.mpr ⟨held, hinv.leads i held hheld hnow, hnow⟩

/-- In a run of coordinators with different owner ids every write is made by the leader if and only if
every write comes before the lease that its pass took at the start has run out. -/
theorem writes_led_iff (hids : DistinctOwners cs) {s : Recovery} (hs : (recoveryMachine cs).init s)
    {labels : List RecoveryLabel} (hr : (recoveryMachine cs).Runs s labels) :
    (recoveryMachine cs).EachStep (Led cs) s labels ↔
      (recoveryMachine cs).EachStep InTime s labels := by
  refine Machine.eachStep_congr (fun s label hreach _ => ?_) (.init hs) hr
  constructor
  · intro hled i held hwrites hheld
    exact (leads_iff hids hreach hheld).mp (hled i hwrites)
  · intro htime i hwrites
    obtain ⟨held, hheld⟩ := held_of_isWrite hwrites.1
    exact (leads_iff hids hreach hheld).mpr (htime i held hwrites hheld)

/-- Two coordinators with leases of five seconds. -/
def twoCoordinators (i : ℕ) : Coordinator := ⟨toString i, 5, 50, false⟩

theorem twoCoordinators_distinct : DistinctOwners twoCoordinators := fun _ _ h => toString_nat_inj h

/-- No pass and no lease, at instant 0. -/
def quiet : Recovery := ⟨0, none, fun _ => .idle⟩

theorem quiet_init : (recoveryMachine cs).init quiet := ⟨rfl, fun _ => rfl⟩

/-- A run in which a pass lists one stale member and sleeps for six seconds, and another coordinator
takes the lease. -/
def sleepRun : List RecoveryLabel :=
  [.begin 0, .step 0 (.started 0), .step 0 (.started 0),
    .step 0 (.candidates [⟨"w", none, none, false, false⟩]), .tick 6000,
    .begin 1, .step 1 (.started 6000000), .step 1 (.started 6000000)]

/-- The run `sleepRun`, after which the first pass prunes the member. -/
def lateRun : List RecoveryLabel := sleepRun ++ [.step 0 .proceed]

theorem lateRun_runs : (recoveryMachine twoCoordinators).Runs quiet lateRun := by decide +kernel

/-- In the run `lateRun` a pass writes although another coordinator leads. -/
theorem lateRun_not_led :
    ¬ (recoveryMachine twoCoordinators).EachStep (Led twoCoordinators) quiet lateRun := by
  intro h
  obtain ⟨hled, -⟩ := (Machine.eachStep_append.mp h).2
  have hholder := hled 0 ⟨by decide +kernel, .proceed, rfl, by decide⟩
  exact absurd hholder (by decide +kernel)

/-- A pass can write while another coordinator leads. -/
theorem writes_not_led : ¬ ∀ s labels, (recoveryMachine twoCoordinators).init s →
    (recoveryMachine twoCoordinators).Runs s labels →
    (recoveryMachine twoCoordinators).EachStep (Led twoCoordinators) s labels :=
  fun h => lateRun_not_led (h quiet lateRun quiet_init lateRun_runs)

/-- In the run `lateRun` a write comes too late. -/
theorem writes_led_iff_late :
    ¬ (recoveryMachine twoCoordinators).EachStep InTime quiet lateRun := fun h =>
  lateRun_not_led ((writes_led_iff twoCoordinators_distinct quiet_init lateRun_runs).mpr h)

end Recovery

end Dibs
