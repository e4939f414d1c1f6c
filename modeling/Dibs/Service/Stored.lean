import Dibs.Models.Documents
import Dibs.Service.Lifetime

/-!
# What the service stores is valid

The builders of `WatchService` in `backend/services/watch_service.py` make the next document and sidecar
with `model_copy`, which checks nothing. Each of them keeps what the models check: `Verdict.plan_storable`
says it for the plan of every verdict, from a claim on a valid watch. The counters of a sidecar are bounded
by the number of commits before it was written, so they stay below their limits as long as that number
does.

`Task.next_storable` carries it along a delivery: a provider that answers valid slots and confirmations
leaves nothing else to commit.
-/

namespace Dibs

/-! ## Documents and sidecars -/

/-- A watch that the models accept, with instants that a `datetime` can hold. -/
structure Watch.Storable (w : Watch) : Prop where
  valid : w.Valid
  dated : w.Dated

/-- The counters of a sidecar of the watch `u` do not exceed `n`. The revision has a bound of its own. -/
structure WatchRuntime.Within (u : String) (n : ℕ) (r : WatchRuntime) : Prop where
  requiredAttempts : NumberWithin 1 maxRequiredAttempts r.requiredAttempts
  consecutiveOutages : r.consecutiveOutages ≤ n
  cadenceSequence : r.cadenceSequence ≤ n
  windowId : ∀ windowId ∈ r.windowId, windowId = windowIdFor u r.cadenceSequence
  dated : r.Dated

theorem WatchRuntime.Within.mono {u : String} {n n' : ℕ} {r : WatchRuntime} (h : r.Within u n)
    (hn : n ≤ n') : r.Within u n' :=
  { h with
    consecutiveOutages := h.consecutiveOutages.trans hn
    cadenceSequence := h.cadenceSequence.trans hn }

/-- The id of a window fits its field. -/
theorem windowIdFor_sized {u : String} {k : ℕ} (hu : SizedWithin 1 200 u) (hk : k ≤ maxCount) :
    SizedWithin 0 256 (windowIdFor u k) := by
  have hdigits : (Nat.toDigits 10 k).length ≤ 10 :=
    (Nat.length_toDigits_le_iff (by decide) (by decide)).mpr (lt_of_le_of_lt hk (by decide))
  have hlength : (windowIdFor u k).toList.length = u.toList.length + 1 + (Nat.toDigits 10 k).length := by
    simp [windowIdFor, Nat.add_assoc, Nat.add_comm 1]
  have hlong := hu.2
  exact ⟨Nat.zero_le _, by omega⟩

/-- A sidecar whose counters are within the limit of the models is valid. -/
theorem WatchRuntime.Within.valid {u : String} {n : ℕ} {r : WatchRuntime} (h : r.Within u n)
    (hu : SizedWithin 1 200 u) (hn : n ≤ maxCount) (hrevision : r.revision ≤ maxCount) : r.Valid where
  revision := hrevision
  requiredAttempts := h.requiredAttempts
  consecutiveOutages := h.consecutiveOutages.trans hn
  cadenceSequence := h.cadenceSequence.trans hn
  windowId windowId hw := by
    rw [h.windowId windowId hw]
    exact windowIdFor_sized hu (h.cadenceSequence.trans hn)

/-- A claim on a stored watch that is active, issued after at most `n` commits. -/
structure WindowClaim.Storable (n : ℕ) (c : WindowClaim) : Prop where
  watch : c.watch.Storable
  active : c.watch.status = .active
  runtime : c.runtime.Within c.watch.watchId n
  revision : c.runtime.revision ≤ n

theorem WindowClaim.Storable.mono {n n' : ℕ} {c : WindowClaim} (h : c.Storable n) (hn : n ≤ n') :
    c.Storable n' :=
  { h with runtime := h.runtime.mono hn, revision := h.revision.trans hn }

/-! ## The builders -/

/-- What a verdict carries from the provider into a document is valid. -/
def Verdict.Sound : Verdict → Prop
  | .outage error => SizedWithin 1 500 error
  | .found slots => slots ≠ [] ∧ ∀ slot ∈ slots, slot.Valid
  | .booked confirmation _ => confirmation.Valid ∧ IsDatetime confirmation.createdAt
  | .exhausted | .miss | .cancelled => True

/-- A transition that may be committed with a claim. -/
structure Plan.Storable (n : ℕ) (claim : WindowClaim) (plan : Plan) : Prop where
  watch : plan.watch.Storable
  watchId : plan.watch.watchId = claim.watch.watchId
  runtime : plan.runtime.Within claim.watch.watchId (n + 1)

theorem Plan.Storable.mono {n n' : ℕ} {claim : WindowClaim} {plan : Plan} (h : plan.Storable n claim)
    (hn : n ≤ n') : plan.Storable n' claim :=
  { h with runtime := h.runtime.mono (Nat.succ_le_succ hn) }

/-- One attempt more stays under the ceiling. -/
theorem Watch.Storable.attempted {w : Watch} (h : w.Storable) {now : Time} (hnow : IsDatetime now)
    (error : Option String) (herror : ∀ e ∈ error, SizedWithin 1 500 e) :
    ({ w with
        attempts := min (w.attempts + 1) w.maxAttempts
        lastCheckedAt := some now
        updatedAt := now
        lastError := error } : Watch).Storable where
  valid := { h.valid with
    lastError := herror
    consistent := { h.valid.consistent with attempts := min_le_right .. } }
  dated := { h.dated with
    updatedAt := hnow
    lastCheckedAt := fun _ ht => Option.some.inj ht ▸ hnow }

/-- An active watch with another next check. -/
theorem Watch.Storable.scheduled {w : Watch} (h : w.Storable) (hactive : w.status = .active) {due : Time}
    (hdue : IsDatetime due) : ({ w with nextCheckAt := some due } : Watch).Storable where
  valid := { h.valid with
    consistent := { h.valid.consistent with finished := fun hend => by simp [hactive] at hend } }
  dated := { h.dated with nextCheckAt := fun t ht => Option.some.inj ht ▸ hdue }

/-- A watch that ends without a slot or a confirmation of its own. -/
theorem Watch.Storable.ended {w : Watch} (h : w.Storable) {status : WatchStatus}
    (hstatus : status = .expired ∨ status = .cancelled) {now : Time} (hnow : IsDatetime now) :
    (w.ended status now).Storable where
  valid := { h.valid with
    consistent :=
      { booked := fun hb => by rcases hstatus with rfl | rfl <;> contradiction
        found := fun hf => by rcases hstatus with rfl | rfl <;> contradiction
        finished := fun _ => rfl
        attempts := h.valid.consistent.attempts } }
  dated := { h.dated with
    updatedAt := hnow
    nextCheckAt := fun _ ht => by contradiction }

/-- `_expired_watch` keeps a document valid. -/
theorem expiredWatch_storable {w : Watch} (h : w.Storable) {now : Time} (hnow : IsDatetime now)
    (attempted : Bool) : (expiredWatch w now attempted).Storable := by
  have hended := h.ended (.inl rfl) hnow
  cases attempted with
  | false => exact hended
  | true =>
    exact ⟨{ hended.valid with consistent := { hended.valid.consistent with } },
      { hended.dated with lastCheckedAt := fun t ht => Option.some.inj ht ▸ hnow }⟩

/-- `_found_watch` keeps a document valid. -/
theorem foundWatch_storable {w : Watch} (h : w.Storable) {now : Time} (hnow : IsDatetime now)
    {slots : List AvailabilitySlot} (hne : slots ≠ []) (hslots : ∀ slot ∈ slots, slot.Valid) :
    (foundWatch w slots now).Storable where
  valid := { h.valid with
    foundSlots := ⟨(List.length_take_le _ _).trans (by decide),
      fun slot hslot => hslots slot (List.mem_of_mem_take hslot)⟩
    lastError := fun e he => by contradiction
    consistent :=
      { booked := fun hb => by contradiction
        found := fun _ => by
          obtain ⟨slot, rest, rfl⟩ := List.exists_cons_of_ne_nil hne
          exact List.cons_ne_nil _ _
        finished := fun _ => rfl
        attempts := min_le_right .. } }
  dated := { h.dated with
    updatedAt := hnow
    lastCheckedAt := fun t ht => Option.some.inj ht ▸ hnow
    nextCheckAt := fun _ ht => by contradiction }

/-- `_booked_watch` keeps a document valid. -/
theorem bookedWatch_storable {w : Watch} (h : w.Storable) {now : Time} (hnow : IsDatetime now)
    {confirmation : BookingConfirmation} (hconfirmation : confirmation.Valid)
    (hcreated : IsDatetime confirmation.createdAt) (attempted : Bool) :
    (bookedWatch w now confirmation attempted).Storable := by
  have hreplayed : (bookedWatch w now confirmation false).Storable := by
    refine ⟨{ h.valid with
      foundSlots := ⟨by simp [bookedWatch], fun slot hslot => List.mem_singleton.mp hslot ▸ hconfirmation.slot⟩
      booking := fun b hb => Option.some.inj hb ▸ hconfirmation
      consistent := ⟨fun _ => by simp [bookedWatch], fun hf => by contradiction, fun _ => rfl,
        h.valid.consistent.attempts⟩ }, { h.dated with
      updatedAt := hnow
      nextCheckAt := fun _ ht => by contradiction
      booking := fun b hb => Option.some.inj hb ▸ hcreated }⟩
  cases attempted with
  | false => exact hreplayed
  | true =>
    refine ⟨{ hreplayed.valid with
      lastError := fun e he => by contradiction
      consistent := { hreplayed.valid.consistent with attempts := min_le_right .. } },
      { hreplayed.dated with lastCheckedAt := fun t ht => Option.some.inj ht ▸ hnow }⟩

/-- The sidecar of a terminal commit keeps the bounds. -/
theorem terminalRuntime_within {u : String} {n : ℕ} {r : WatchRuntime} (h : r.Within u n) :
    (terminalRuntime r).Within u n :=
  { h with
    consecutiveOutages := Nat.zero_le _
    windowId := fun _ hw => by contradiction
    dated := { h.dated with scheduledFor := fun _ ht => by contradiction } }

/-- The sidecar of the next window has one cadence number more, and at most one outage more. -/
theorem successorRuntime_within {u : String} {n : ℕ} {r : WatchRuntime} (h : r.Within u n) {due : Time}
    (hdue : IsDatetime due) {outages : ℕ} (houtages : outages ≤ n + 1) :
    (successorRuntime u r due outages).Within u (n + 1) :=
  { h with
    consecutiveOutages := houtages
    cadenceSequence := Nat.succ_le_succ h.cadenceSequence
    windowId := fun _ hw => (Option.some.inj hw).symm
    dated := { h.dated with scheduledFor := fun _ ht => Option.some.inj ht ▸ hdue } }

/-- A terminal transition may be committed when its document may. -/
theorem commitTerminal_storable {n : ℕ} {claim : WindowClaim} (hc : claim.Storable n) {watch : Watch}
    (hwatch : watch.Storable) (hid : watch.watchId = claim.watch.watchId) :
    (commitTerminal claim watch).Storable n claim :=
  ⟨hwatch, hid, (terminalRuntime_within hc.runtime).mono (Nat.le_succ n)⟩

/-- An instant between two that a `datetime` can hold. -/
theorem IsDatetime.between {a b t : Time} (ha : IsDatetime a) (hb : IsDatetime b) (hat : a ≤ t)
    (htb : t ≤ b) : IsDatetime t := ⟨ha.1.trans hat, htb.trans hb.2⟩

/-- A miss leaves a transition that may be committed: the next window is inside the lifetime. -/
theorem commitMiss_storable (svc : WatchService) {n : ℕ} {claim : WindowClaim} (hc : claim.Storable n)
    {now : Time} (hnow : IsDatetime now) (offset : ℚ) :
    (commitMiss svc claim now none offset).Storable n claim := by
  have hattempted := hc.watch.attempted hnow none (by simp)
  unfold commitMiss
  dsimp only
  split_ifs with hover
  · exact commitTerminal_storable hc (expiredWatch_storable hattempted hnow true) (by simp)
  · have hfloor := not_lt.mp (not_or.mp hover).2
    obtain ⟨hlow, hhigh⟩ := due_within hfloor (min_le_right _ (totalSeconds (claim.watch.expiresAt - now)))
    have hdue : IsDatetime _ :=
      hnow.between hc.watch.dated.expiresAt ((le_add_of_nonneg_right (by decide)).trans hlow) hhigh
    exact ⟨hattempted.scheduled hc.active hdue, rfl,
      successorRuntime_within hc.runtime hdue (Nat.zero_le _)⟩

/-- The delay after an outage is not more than what is left. -/
theorem outageDelay_le {svc : WatchService} {outages : ℕ} {now : Time} {watch : Watch}
    {offset delay : ℚ} (h : outageDelay svc outages now watch offset = some delay) :
    delay ≤ totalSeconds (watch.expiresAt - now) := by
  unfold outageDelay at h
  dsimp only at h
  split_ifs at h
  all_goals
    obtain rfl := Option.some.inj h
    exact min_le_right ..

/-- An outage leaves a transition that may be committed. -/
theorem commitOutage_storable (svc : WatchService) {n : ℕ} {claim : WindowClaim} (hc : claim.Storable n)
    {now : Time} (hnow : IsDatetime now) {error : String} (herror : SizedWithin 1 500 error) (offset : ℚ) :
    (commitOutage svc claim now error offset).Storable n claim := by
  unfold commitOutage
  dsimp only
  split
  · exact commitTerminal_storable hc (expiredWatch_storable hc.watch hnow false) (by simp)
  next delay hdelay =>
    have hnonneg : (0 : ℤ) ≤ timedelta delay :=
      le_roundHalfEven (by have := outageDelay_nonneg hdelay; push_cast; linarith)
    have hleft := timedelta_le_of_totalSeconds (outageDelay_le hdelay)
    have hdue : IsDatetime (now + timedelta delay) :=
      hnow.between hc.watch.dated.expiresAt (le_add_of_nonneg_right hnonneg) (by linarith)
    have houtages : saturatingOutages svc (claim.runtime.consecutiveOutages + 1) ≤ n + 1 :=
      (min_le_left ..).trans (Nat.succ_le_succ hc.runtime.consecutiveOutages)
    -- The attempts stay, and the error is the one that was given.
    have hreached : ({ claim.watch with
        lastCheckedAt := some now, updatedAt := now, lastError := some error } : Watch).Storable :=
      ⟨{ hc.watch.valid with
          lastError := fun e he => Option.some.inj he ▸ herror
          consistent := { hc.watch.valid.consistent with } },
        { hc.watch.dated with
          updatedAt := hnow
          lastCheckedAt := fun t ht => Option.some.inj ht ▸ hnow }⟩
    exact ⟨hreached.scheduled hc.active hdue, rfl, successorRuntime_within hc.runtime hdue houtages⟩

/-- Whatever a check comes to, what is committed may be stored. -/
theorem Verdict.plan_storable (svc : WatchService) {n : ℕ} {claim : WindowClaim} (hc : claim.Storable n)
    {now : Time} (hnow : IsDatetime now) (offset : ℚ) {verdict : Verdict} (hv : verdict.Sound) :
    (verdict.plan svc claim now offset).Storable n claim := by
  cases verdict with
  | exhausted => exact commitTerminal_storable hc (expiredWatch_storable hc.watch hnow false) (by simp)
  | outage error => exact commitOutage_storable svc hc hnow hv offset
  | miss => exact commitMiss_storable svc hc hnow offset
  | found slots => exact commitTerminal_storable hc (foundWatch_storable hc.watch hnow hv.1 hv.2) rfl
  | booked confirmation attempted =>
    exact commitTerminal_storable hc (bookedWatch_storable hc.watch hnow hv.1 hv.2 attempted) (by simp)
  | cancelled => exact commitTerminal_storable hc (hc.watch.ended (.inr rfl) hnow) rfl

/-! ## Deliveries -/

/-- What a provider may answer. -/
def Input.Sound : Input → Prop
  | .booking (some confirmation) | .confirmed confirmation | .reconciled (.confirmed confirmation) =>
    confirmation.Valid ∧ IsDatetime confirmation.createdAt
  | .slots found => ∀ slot ∈ found, slot.Valid
  | _ => True

/-- What a coroutine holds may be stored, after at most `n` commits. -/
def Task.Storable (n : ℕ) : Task → Prop
  | .creating watch runtime => (Op.create watch runtime).Served ∧ watch.Storable ∧ runtime.Valid
  | .owning c | .releasing c => c.Storable n
  | .replaying c now | .searching c now | .permitting c now _ | .booking c now _ _ | .checking c now _
  | .reconciling c now _ _ => c.Storable n ∧ IsDatetime now
  | .committing c _ plan => c.Storable n ∧ plan.Storable n c
  | _ => True

theorem Task.Storable.mono {n n' : ℕ} {task : Task} (h : task.Storable n) (hn : n ≤ n') :
    task.Storable n' := by
  cases task with
  | owning | releasing => exact WindowClaim.Storable.mono h hn
  | replaying | searching | permitting | booking | checking | reconciling => exact ⟨h.1.mono hn, h.2⟩
  | committing => exact ⟨h.1.mono hn, h.2.mono hn⟩
  | _ => exact h

/-- The text of an error fits its field. -/
theorem errorText_sized (message : String) : SizedWithin 1 500 (errorText message) := by
  unfold errorText
  dsimp only
  split_ifs with h
  · exact ⟨by decide, by decide⟩
  · have hlength : (String.ofList (message.toList.take 500)).toList.length ≤ 500 := by
      rw [String.toList_ofList]
      exact List.length_take_le _ _
    refine ⟨List.length_pos_iff.mpr fun hnil => h ?_, hlength⟩
    exact String.toList_inj.mp hnil

/-- The verdict on a failed await is sound. -/
theorem Failure.verdict_sound (failure : Failure) : failure.verdict.Sound := by
  cases failure with
  | timeout => exact ⟨by decide, by decide⟩
  | raised error =>
    cases error with
    | slotNotFound | slotUnavailable => trivial
    | other message => exact errorText_sized message

/-- A search that finds nothing is a miss. -/
theorem found_ne_nil {svc : WatchService} {offset : ℚ} {c : WindowClaim} {now now' : Time}
    {slots slots' : List AvailabilitySlot}
    (h : nextSearching svc (.slots slots) offset c now = some (.commit svc offset c now' (.found slots'))) :
    slots' ≠ [] := by
  cases slots with
  | nil => simp [nextSearching, Task.commit] at h
  | cons slot rest =>
    simp only [nextSearching] at h
    split_ifs at h
    · simp [Task.commit] at h
    · simp only [Task.commit, Option.some.injEq, Task.committing.injEq, Verdict.found.injEq] at h
      rw [← h.2.1]
      exact List.cons_ne_nil _ _

/-- A step of a coroutine keeps what it holds storable, when the provider answers validly and a claim that
it is given is on a stored watch. -/
theorem Task.next_storable {svc : WatchService} {s : Store} {input : Input} {offset : ℚ}
    {reply : Option Reply} {task task' : Task} {n : ℕ}
    (h : task.next svc s input offset reply = some task') (hs : task.Storable n) (hinput : input.Sound)
    (hnow : IsDatetime s.now) (hclaim : ∀ c, reply = some (.claim (.owned c)) → c.Storable n) :
    task'.Storable n := by
  -- Every verdict is committed as the plan that the service builds for it.
  have hcommit : ∀ {c now verdict}, c.Storable n ∧ IsDatetime now → verdict.Sound →
      (Task.commit svc offset c now verdict).Storable n :=
    fun hc hv => ⟨hc.1, Verdict.plan_storable svc hc.1 hc.2 offset hv⟩
  cases Task.next_step h with
  | owned => exact hclaim _ rfl
  | exhausted => exact hcommit ⟨hs, hnow⟩ trivial
  | autoBook | monitor => exact ⟨hs, hnow⟩
  | replayed | booked | confirmed => exact hcommit hs hinput
  | found => exact hcommit hs ⟨found_ne_nil h, hinput⟩
  | nothingFound | permitCancelled | cancelRequested | missed => exact hcommit hs trivial
  | absent | neverKnown => exact hcommit hs (errorText_sized _)
  | failed hawait =>
    rcases hawait with rfl | rfl | ⟨left, message, rfl⟩ <;> exact hcommit hs (Failure.verdict_sound _)
  | overdue hawait =>
    rcases hawait with ⟨slots, rfl⟩ | ⟨slot, rest, rfl⟩ | ⟨error, rfl⟩ <;>
      exact hcommit hs (Failure.verdict_sound _)
  | noReplay | tryBooking | granted | grantedNothing | nextSlot | noSlotLeft | ambiguous
  | definitivelyAbsent | stillUnknown => exact hs
  | permitFenced => exact hs.1
  | _ => trivial

end Dibs
