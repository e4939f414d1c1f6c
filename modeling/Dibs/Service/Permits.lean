import Dibs.Service.Endings

/-!
# Booking permits and cancellations

A cancellation of an `auto_book` watch should end it only when the provider holds no booking. The
delivery that was granted the last booking permit finds that out: each `book_slot` call is refused, or
`reconcile_booking` says that there is no booking (`Permit.Settled`). What the provider answers is
arbitrary.

A `Permit` is a booking permit with the calls that were made under it. It is a record beside the
service, which does not read it. The delivery that holds the last permit commits a cancellation only
when the permit is settled (`Permit.Fits`). Two other steps can cancel a watch whose last permit is
not settled (`Overrides`): a `cancel_if_active` that finds no booking phase, and another delivery that
was denied its own permit. The first is possible only after a commit has cleared the phase
(`guarded`).
-/

namespace Dibs

/-- A slot race: the provider refuses the booking for certain. -/
def Input.isRefusal : Input → Bool
  | .failed (.raised error) => error.isSlotRace
  | _ => false

/-- A booking permit that was granted, with the provider calls made under it. -/
structure Permit where
  claim : WindowClaim
  /-- The `book_slot` calls, newest first, each with what it returned. -/
  books : List (Option Input)
  /-- The answers of `reconcile_booking` after the last of them, newest first. -/
  reconciled : List Reconciliation
deriving DecidableEq

namespace Permit

/-- The provider was found to hold no booking: it said so after the last `book_slot` call, or every
`book_slot` call has returned with a refusal. -/
def Settled (p : Permit) : Prop :=
  .definitivelyAbsent ∈ p.reconciled ∨ ∀ returned ∈ p.books, returned.any Input.isRefusal = true

instance (p : Permit) : Decidable p.Settled := inferInstanceAs (Decidable (_ ∨ _))

/-- A new permit. -/
def granted (claim : WindowClaim) : Permit := ⟨claim, [], []⟩

/-- `book_slot` is called. -/
def called (p : Permit) : Permit := ⟨p.claim, none :: p.books, []⟩

/-- The last call of `book_slot` returns. -/
def returned (p : Permit) (input : Input) : Permit := { p with books := some input :: p.books.tail }

/-- `reconcile_booking` returns. -/
def answered (p : Permit) : Input → Permit
  | .reconciled answer => { p with reconciled := answer :: p.reconciled }
  | _ => p

end Permit

/-- A delivery calls `book_slot`. -/
def Task.isBooking : Task → Bool
  | .booking _ _ _ _ => true
  | _ => false

/-- The record of a permit after the delivery that holds it has moved on to `task'`. -/
def Task.proceeded (task task' : Task) (input : Input) (p : Permit) : Permit :=
  match task with
  | .booking _ _ _ _ =>
    if task'.isBooking then (p.returned input).called else p.returned input
  | .reconciling _ _ _ _ => p.answered input
  | _ => p

/-- The record stays one of the same claim. -/
@[simp]
theorem Task.proceeded_claim (task task' : Task) (input : Input) (p : Permit) :
    (task.proceeded task' input p).claim = p.claim := by
  unfold proceeded
  split
  · split_ifs <;> rfl
  · cases input <;> rfl
  · rfl

/-- The last permit of the watch after its delivery has moved from one task to the next. A delivery
that does not hold the last permit leaves it alone. -/
def Task.permit (task task' : Task) (input : Input) (last : Option Permit) : Option Permit :=
  match task, task' with
  | .permitting c _ _, .booking _ _ _ _ => some (Permit.granted c).called
  | .permitting c _ _, .checking _ _ _ => some (Permit.granted c)
  | task, task' =>
    last.map fun p => if task.claim = some p.claim then task.proceeded task' input p else p

/-- A delivery that is past the provider leaves the last permit alone. -/
theorem Task.permit_of_done {task : Task}
    (h : (∃ c, task = .releasing c) ∨ ∃ c verdict plan, task = .committing c verdict plan)
    (task' : Task) (input : Input) (last : Option Permit) : task.permit task' input last = last := by
  rcases h with ⟨c, rfl⟩ | ⟨c, verdict, plan, rfl⟩ <;>
    cases last with
    | none => rfl
    | some p => exact congrArg some (ite_self p)

/-- The service, with the last booking permit of each watch. -/
structure PermitSys where
  sys : Sys
  permits : String → Option Permit

namespace PermitSys

/-- The row of a watch. -/
def row (s : PermitSys) (u : String) : Row := s.sys.store.row u

/-- The last permits after a step of the service. -/
def permitsAfter (svc : WatchService) (s : PermitSys) : SysLabel → String → Option Permit
  | .resume i input offset =>
    match (s.sys.tasks i).claim with
    | some c => Function.update s.permits c.watch.watchId
        ((s.sys.tasks i).permit (((sysMachine svc).exec (.resume i input offset) s.sys).tasks i) input
          (s.permits c.watch.watchId))
    | none => s.permits
  | _ => s.permits

end PermitSys

/-- The machine of the service with its permits. -/
def permitMachine (svc : WatchService) : Machine PermitSys SysLabel where
  init s := (sysMachine svc).init s.sys ∧ ∀ u, s.permits u = none
  allowed s label := (sysMachine svc).allowed s.sys label
  exec label s := ⟨(sysMachine svc).exec label s.sys, s.permitsAfter svc label⟩

instance (svc : WatchService) (s : PermitSys) : DecidablePred ((permitMachine svc).allowed s) :=
  fun label => inferInstanceAs (Decidable ((sysMachine svc).allowed s.sys label))

/-- Only a cancellation makes a cancelled watch. -/
theorem Verdict.plan_cancelled {svc : WatchService} {c : WindowClaim} {now : Time} {offset : ℚ}
    {verdict : Verdict} (hactive : c.watch.status = .active)
    (h : (verdict.plan svc c now offset).watch.status = .cancelled) : verdict = .cancelled := by
  cases verdict with
  | cancelled => rfl
  | miss =>
    rcases commitMiss_cases svc c now none offset with hs | ⟨-, hs⟩
    · exact absurd (hs.status.symm.trans h) (by simp [hactive])
    · exact absurd (hs.symm.trans h) (by simp)
  | outage error =>
    rcases commitOutage_cases svc c now error offset with hs | ⟨-, hs⟩
    · exact absurd (hs.status.symm.trans h) (by simp [hactive])
    · exact absurd (hs.symm.trans h) (by simp)
  | booked confirmation attempted => cases attempted <;> contradiction
  | exhausted | found => contradiction

/-- A watch is in its booking phase. -/
def Row.Booking (r : Row) : Prop := ∃ rt, r.runtime = some rt ∧ rt.phase = some .booking

/-- An active watch stays in its booking phase, unless its owner commits a successor. -/
theorem Effect.booking {d : Duration} {now : Time} {r r' : Row} {op : Op} {reply : Reply} {u : String}
    (he : Effect d now r op reply r') (hco : r.Coherent u) (hthere : r.watch ≠ none)
    (hbooking : ∀ w, r.watch = some w → w.status = .active → r.Booking)
    (hno : ∀ c nw nr, op = .commit c nw nr → r.Owns now c → nw.status ≠ .active)
    {w : Watch} (hw : r'.watch = some w) (ha : w.status = .active) : r'.Booking := by
  cases he with
  | create hnone => exact absurd hnone hthere
  | claim | release | claimDispatch | markDispatched | releaseDispatch => exact hbooking w hw ha
  | begin => exact ⟨_, rfl, rfl⟩
  | pend _ _ _ hphase => exact ⟨_, rfl, hphase⟩
  | reschedule _ _ _ _ howns hnew => exact absurd hnew (hno _ _ _ rfl howns)
  | finish _ _ _ _ _ hnew =>
    obtain rfl := Option.some.inj hw
    exact absurd ha hnew
  | cancel | expire =>
    obtain rfl := Option.some.inj hw
    contradiction
  | synthesize hwatch hactive hmarker =>
    -- An active watch has its marker.
    obtain ⟨rt, due, hs⟩ := hco.active _ hwatch hactive
    exact absurd (hmarker.symm.trans hs.marker) (by simp)

/-- An active watch stays in its booking phase over a call that is not its owner's commit of a
successor. -/
theorem Store.booking_call {s : Store} (hr : (storeMachine Served).Reach s) {op : Op}
    (ho : Served s op) {u : String} (hcreated : u ∈ s.created)
    (hbooking : ∀ w, (s.row u).watch = some w → w.status = .active → (s.row u).Booking)
    (hno : ∀ c nw nr, op = .commit c nw nr → c.watch.watchId = u → (s.row u).Owns s.now c →
      nw.status ≠ .active) {w : Watch} (hw : ((s.call op).row u).watch = some w)
    (ha : w.status = .active) : ((s.call op).row u).Booking := by
  rcases s.row_call op u with ⟨ht, he⟩ | ⟨hrow, -⟩ | ⟨-, hcl⟩
  · by_cases hthere : (s.row u).watch = none
    · -- The id is taken, so no new watch is stored under it.
      rcases inactive_call ho.1 hcreated (by simp [hthere]) with hwatch | ⟨hwatch, -⟩ <;> rw [hwatch] at hw
      · exact absurd (hthere.symm.trans hw) (by simp)
      · contradiction
    · refine he.booking (coherent hr u) hthere hbooking ?_ hw ha
      rintro c nw nr rfl howns
      exact hno c nw nr rfl ht howns
  · rw [hrow] at hw ⊢
    exact hbooking w hw ha
  · rcases hcl with hcl | ⟨-, hcl⟩ | ⟨-, hcl⟩ <;> rw [hcl] at hw ⊢
    · exact hbooking w hw ha
    · contradiction
    · exact hbooking w hw ha

/-! ## The delivery that holds the last permit -/

/-- What the record of a permit says of the delivery that holds it. -/
def Permit.Fits (p : Permit) : Task → Prop
  | .owning _ | .replaying _ _ | .searching _ _ | .permitting _ _ _ => False
  | .booking _ _ _ _ => ∃ refused, p = ⟨p.claim, none :: refused, []⟩ ∧
      ∀ returned ∈ refused, returned.any Input.isRefusal = true
  | .reconciling _ _ _ _ => ¬ p.Settled
  | .checking _ _ _ | .committing _ .cancelled _ => p.Settled
  | _ => True

/-- A permit is not settled while `book_slot` has not returned. -/
theorem Permit.not_settled_called (p : Permit) : ¬ p.called.Settled := by
  rintro (h | h)
  · simp [called] at h
  · exact absurd (h none List.mem_cons_self) (by simp)

/-- A delivery that books or reconciles holds a permit that is not settled. -/
theorem Permit.Fits.not_settled {p : Permit} {task : Task} (h : p.Fits task)
    (htask : (∃ c now slot rest, task = .booking c now slot rest) ∨
      ∃ c now left error, task = .reconciling c now left error) : ¬ p.Settled := by
  rcases htask with ⟨c, now, slot, rest, rfl⟩ | ⟨c, now, left, error, rfl⟩
  · obtain ⟨refused, hp, -⟩ := h
    rw [hp]
    exact Permit.not_settled_called ⟨p.claim, refused, []⟩
  · exact h

/-- What a step of a delivery does to the last permit of its watch: nothing, or the delivery is granted
a new one, or it holds the last one and the provider has answered it. -/
theorem Task.Step.permit_cases {svc : WatchService} {s : Store} {offset : ℚ} {task task' : Task}
    {input : Input} {reply : Option Reply} (h : Task.Step svc s offset task input reply task')
    {last : Option Permit} {p : Permit} (hp : task.permit task' input last = some p) :
    last = some p ∨
    (∃ c now slots permitId, task = .permitting c now slots ∧ input = .proceed ∧
      reply = some (.begin (.granted permitId)) ∧ p.claim = c) ∨
    ∃ p₀, last = some p₀ ∧ task.claim = some p₀.claim ∧ p = task.proceeded task' input p₀ ∧
      ((∃ c now slot rest, task = .booking c now slot rest) ∨
        ∃ c now left error, task = .reconciling c now left error) := by
  -- A delivery that does not book or reconcile adds nothing to the record.
  have hkeep : (∀ p₀, task.proceeded task' input p₀ = p₀) →
      (last.map fun p => if task.claim = some p.claim then task.proceeded task' input p else p) = some p →
      last = some p := by
    intro hsame hmap
    obtain ⟨p₀, hlast, heq⟩ := Option.map_eq_some_iff.mp hmap
    rw [hsame, ite_self] at heq
    rw [hlast, heq]
  have hanswer : ((∃ c now slot rest, task = .booking c now slot rest) ∨
        ∃ c now left error, task = .reconciling c now left error) →
      (last.map fun p => if task.claim = some p.claim then task.proceeded task' input p else p) = some p →
      last = some p ∨ ∃ p₀, last = some p₀ ∧ task.claim = some p₀.claim ∧
        p = task.proceeded task' input p₀ := by
    intro _ hmap
    obtain ⟨p₀, hlast, heq⟩ := Option.map_eq_some_iff.mp hmap
    split_ifs at heq with hclaim
    · exact .inr ⟨p₀, hlast, hclaim, heq.symm⟩
    · exact .inl (by rw [hlast, heq])
  cases h with
  | granted | grantedNothing =>
    obtain rfl := Option.some.inj hp
    exact .inr (.inl ⟨_, _, _, _, rfl, rfl, rfl, rfl⟩)
  | booked | nextSlot | noSlotLeft | ambiguous =>
    rcases hanswer (.inl ⟨_, _, _, _, rfl⟩) hp with hlast | ⟨p₀, hlast, hclaim, heq⟩
    · exact .inl hlast
    · exact .inr (.inr ⟨p₀, hlast, hclaim, heq, .inl ⟨_, _, _, _, rfl⟩⟩)
  | confirmed | definitivelyAbsent | stillUnknown | neverKnown =>
    rcases hanswer (.inr ⟨_, _, _, _, rfl⟩) hp with hlast | ⟨p₀, hlast, hclaim, heq⟩
    · exact .inl hlast
    · exact .inr (.inr ⟨p₀, hlast, hclaim, heq, .inr ⟨_, _, _, _, rfl⟩⟩)
  | failed hawait =>
    rcases hawait with rfl | rfl | ⟨left, message, rfl⟩
    · exact .inl (hkeep (fun _ => rfl) hp)
    · exact .inl (hkeep (fun _ => rfl) hp)
    · exact .inl (hkeep (fun _ => rfl) hp)
  | overdue hawait =>
    rcases hawait with ⟨slots, rfl⟩ | ⟨slot, rest, rfl⟩ | ⟨error, rfl⟩
    · exact .inl (hkeep (fun _ => rfl) hp)
    · rcases hanswer (.inl ⟨_, _, _, _, rfl⟩) hp with hlast | ⟨p₀, hlast, hclaim, heq⟩
      · exact .inl hlast
      · exact .inr (.inr ⟨p₀, hlast, hclaim, heq, .inl ⟨_, _, _, _, rfl⟩⟩)
    · exact .inl (hkeep (fun _ => rfl) hp)
  | _ => exact .inl (hkeep (fun _ => rfl) hp)

/-- A step of the delivery that holds the last permit keeps what the record says of it. -/
theorem Task.Step.fits {svc : WatchService} {s : Store} {offset : ℚ} {task task' : Task}
    {input : Input} {reply : Option Reply} (h : Task.Step svc s offset task input reply task')
    {p : Permit} (hclaim : task.claim = some p.claim) (hfits : p.Fits task) :
    (task.proceeded task' input p).Fits task' := by
  cases h with
  | nextSlot hrace =>
    obtain ⟨refused, hp, hrefused⟩ := hfits
    rw [hp]
    exact ⟨_, rfl, List.forall_mem_cons.mpr ⟨hrace, hrefused⟩⟩
  | noSlotLeft hrace =>
    obtain ⟨refused, hp, hrefused⟩ := hfits
    rw [hp]
    exact .inr (List.forall_mem_cons.mpr ⟨hrace, hrefused⟩)
  | ambiguous =>
    obtain ⟨refused, hp, hrefused⟩ := hfits
    rw [hp]
    rintro (habsent | hall)
    · simp [proceeded, isBooking, Permit.returned] at habsent
    · exact absurd (hall _ List.mem_cons_self) (by simp [Input.isRefusal, AdapterError.isSlotRace])
  | definitivelyAbsent => exact .inl List.mem_cons_self
  | stillUnknown =>
    rintro (habsent | hall)
    · rcases List.mem_cons.mp habsent with hfalse | hmem
      · contradiction
      · exact hfits (.inl hmem)
    · exact hfits (.inr hall)
  | cancelRequested => exact hfits
  | failed hawait =>
    rcases hawait with rfl | rfl | ⟨left, message, rfl⟩
    · exact absurd hfits id
    · exact absurd hfits id
    · -- No failure is a cancellation.
      rename_i failure
      cases failure with
      | timeout => trivial
      | raised error => cases error <;> trivial
  | overdue hawait =>
    rcases hawait with ⟨slots, rfl⟩ | ⟨slot, rest, rfl⟩ | ⟨error, rfl⟩ <;> trivial
  | _ => trivial

/-- After a step of a delivery that holds the last permit, the record fits it. -/
theorem Task.Step.permit_fits {svc : WatchService} {s : Store} {offset : ℚ} {task task' : Task}
    {input : Input} {reply : Option Reply} (h : Task.Step svc s offset task input reply task')
    {last : Option Permit} {p : Permit} (hp : task.permit task' input last = some p)
    (hclaim : task.claim = some p.claim)
    (hfits : ∀ p₀, last = some p₀ → task.claim = some p₀.claim → p₀.Fits task) : p.Fits task' := by
  unfold permit at hp
  split at hp
  · obtain rfl := Option.some.inj hp
    exact ⟨[], rfl, by simp⟩
  · obtain rfl := Option.some.inj hp
    exact .inr (by simp [Permit.granted])
  · obtain ⟨p₀, hlast, heq⟩ := Option.map_eq_some_iff.mp hp
    split_ifs at heq with hholds
    · rw [← heq]
      exact h.fits hholds (hfits p₀ hlast hholds)
    · exact absurd (heq ▸ hclaim) hholds

namespace Sys

variable {svc : WatchService}

/-- No two coroutines work on one claim. -/
def ClaimsDistinct (s : Sys) : Prop :=
  ∀ i j c, (s.tasks i).claim = some c → (s.tasks j).claim = some c → i = j

/-- A coroutine after a step has a claim because it had it before, or because the step issued it to
this coroutine. -/
theorem claim_exec {s : Sys} (hr : (sysMachine svc).Reach s) {label : SysLabel}
    (ha : (sysMachine svc).allowed s label) {j : ℕ} {c : WindowClaim}
    (hc : (((sysMachine svc).exec label s).tasks j).claim = some c) :
    (s.tasks j).claim = some c ∨ (c ∉ s.store.issued ∧ label.task = some j) := by
  rcases tasks_exec ha j with ⟨htask, -⟩ | htask | ⟨hentry, -⟩ | ⟨input, offset, rfl, -, hstep⟩
  · rw [htask] at hc
    exact .inl hc
  · rw [htask] at hc
    contradiction
  · generalize ((sysMachine svc).exec label s).tasks j = task at hentry hc
    cases task <;> contradiction
  · refine (hstep.claim hc).imp_right fun hreply => ⟨?_, rfl⟩
    obtain ⟨op, -, hreply⟩ := Option.map_eq_some_iff.mp hreply
    exact Store.owned_fresh (Store.lawful_of_served (reach_store hr)) hreply

/-- A claim that a coroutine works on was issued. -/
theorem claim_issued {s : Sys} (hr : (sysMachine svc).Reach s) {i : ℕ} {c : WindowClaim}
    (hc : (s.tasks i).claim = some c) : c ∈ s.store.issued :=
  ((wf_and_store hr).1 i).issued hc

/-- In every reachable state the coroutines work on different claims. -/
theorem claims_distinct {s : Sys} (h : (sysMachine svc).Reach s) : s.ClaimsDistinct := by
  refine h.invariant (P := ClaimsDistinct) ?_ ?_
  · rintro s ⟨-, htasks, -⟩ i j c hi
    rw [htasks i] at hi
    contradiction
  · intro s label hr ih ha i j c hi hj
    rcases claim_exec hr ha hi with holdi | ⟨hfresh, hlabel⟩
    · rcases claim_exec hr ha hj with holdj | ⟨hfresh, -⟩
      · exact ih i j c holdi holdj
      · exact absurd (claim_issued hr holdi) hfresh
    · rcases claim_exec hr ha hj with holdj | ⟨-, hlabel'⟩
      · exact absurd (claim_issued hr holdj) hfresh
      · exact Option.some.inj (hlabel.symm.trans hlabel')

end Sys

namespace PermitSys

variable {svc : WatchService}

/-- What the permits say of the deliveries. -/
structure Inv (s : PermitSys) : Prop where
  /-- A permit is for a claim on its watch that was issued. -/
  issued : ∀ u p, s.permits u = some p → p.claim.watch.watchId = u ∧ p.claim ∈ s.sys.store.issued
  /-- The record of a permit fits the delivery that holds it. -/
  fits : ∀ u p i, s.permits u = some p → (s.sys.tasks i).claim = some p.claim → p.Fits (s.sys.tasks i)

/-- The runs with permits are runs of the service. -/
theorem reach_sys {s : PermitSys} (h : (permitMachine svc).Reach s) : (sysMachine svc).Reach s.sys :=
  h.map (M := permitMachine svc) (N := sysMachine svc) (f := PermitSys.sys) (fun _ h => h.1)
    fun _ label _ _ ha => .single ⟨label, ha, rfl⟩

/-- What a step of the service does to the last permit of a watch: nothing, or a delivery was granted a
new one, or the provider has answered the delivery that holds the last one. -/
theorem permits_exec {s : PermitSys} {label : SysLabel} (ha : (permitMachine svc).allowed s label)
    {u : String} {p : Permit} (hp : ((permitMachine svc).exec label s).permits u = some p) :
    s.permits u = some p ∨
    (∃ i offset c now slots permitId, label = .resume i .proceed offset ∧
      s.sys.tasks i = .permitting c now slots ∧ c.watch.watchId = u ∧ p.claim = c ∧
      s.sys.store.reply (.begin c) = .begin (.granted permitId)) ∨
    ∃ i input offset p₀, label = .resume i input offset ∧ s.permits u = some p₀ ∧
      (s.sys.tasks i).claim = some p₀.claim ∧
      p = (s.sys.tasks i).proceeded (((permitMachine svc).exec label s).sys.tasks i) input p₀ ∧
      ((∃ c now slot rest, s.sys.tasks i = .booking c now slot rest) ∨
        ∃ c now left error, s.sys.tasks i = .reconciling c now left error) := by
  cases label with
  | tick | start | crash | maintain => exact .inl hp
  | resume i input offset =>
    change s.permitsAfter svc (.resume i input offset) u = some p at hp
    have hstep := (Sys.resume_step ha).2
    cases hclaim : (s.sys.tasks i).claim with
    | none =>
      simp only [permitsAfter, hclaim] at hp
      exact .inl hp
    | some c =>
      simp only [permitsAfter, hclaim] at hp
      by_cases hu : c.watch.watchId = u
      · subst hu
        rw [Function.update_self] at hp
        rcases hstep.permit_cases hp with hold | ⟨c', now, slots, permitId, htask, rfl, hreply, hc⟩ |
          ⟨p₀, hlast, hholds, heq, hasks⟩
        · exact .inl hold
        · rw [htask] at hclaim hreply
          obtain rfl : c' = c := Option.some.inj hclaim
          exact .inr (.inl ⟨i, offset, c', now, slots, permitId, rfl, htask, rfl, hc,
            Option.some.inj hreply⟩)
        · exact .inr (.inr ⟨i, input, offset, p₀, rfl, hlast, hholds, heq, hasks⟩)
      · rw [Function.update_of_ne (Ne.symm hu)] at hp
        exact .inl hp

/-- A step keeps the permits on issued claims. -/
theorem Inv.issued_exec {s : PermitSys} (hr : (permitMachine svc).Reach s) (h : s.Inv)
    {label : SysLabel} (ha : (permitMachine svc).allowed s label) {u : String} {p : Permit}
    (hp : ((permitMachine svc).exec label s).permits u = some p) :
    p.claim.watch.watchId = u ∧ p.claim ∈ s.sys.store.issued := by
  rcases permits_exec ha hp with hold | ⟨i, offset, c, now, slots, permitId, -, htask, hid, rfl, -⟩ |
    ⟨i, input, offset, p₀, -, hold, -, rfl, -⟩
  · exact h.issued u p hold
  · exact ⟨hid, Sys.claim_issued (reach_sys hr) (by rw [htask]; rfl)⟩
  · rw [Task.proceeded_claim]
    exact h.issued u p₀ hold

/-- A step that leaves the permits of a watch to a delivery `i` was not one of another delivery. -/
theorem holder_exec {s : PermitSys} (hr : (permitMachine svc).Reach s) {label : SysLabel}
    (ha : (permitMachine svc).allowed s label) {u : String} {p : Permit}
    (hp : ((permitMachine svc).exec label s).permits u = some p) {i : ℕ}
    (hclaim : (s.sys.tasks i).claim = some p.claim) (hlabel : label.task ≠ some i) :
    s.permits u = some p := by
  have hdistinct := Sys.claims_distinct (reach_sys hr)
  rcases permits_exec ha hp with hold | ⟨j, offset, c, now, slots, permitId, rfl, htask, -, rfl, -⟩ |
    ⟨j, input, offset, p₀, rfl, -, hholds, rfl, -⟩
  · exact hold
  · obtain rfl := hdistinct i j _ hclaim (by rw [htask]; rfl)
    exact absurd rfl hlabel
  · rw [Task.proceeded_claim] at hclaim
    obtain rfl := hdistinct i j _ hclaim hholds
    exact absurd rfl hlabel

/-- Every step keeps the permits in line with the deliveries. -/
theorem Inv.exec {s : PermitSys} (hr : (permitMachine svc).Reach s) (h : s.Inv) {label : SysLabel}
    (ha : (permitMachine svc).allowed s label) : ((permitMachine svc).exec label s).Inv := by
  have hreach := reach_sys hr
  have hissued : ∀ u p, ((permitMachine svc).exec label s).permits u = some p →
      p.claim.watch.watchId = u ∧ p.claim ∈ s.sys.store.issued :=
    fun u p hp => h.issued_exec hr ha hp
  refine ⟨fun u p hp => (hissued u p hp).imp_right (Sys.issued_exec _ _), fun u p i hp hclaim => ?_⟩
  change (((sysMachine svc).exec label s.sys).tasks i).claim = some p.claim at hclaim
  change p.Fits (((sysMachine svc).exec label s.sys).tasks i)
  -- The delivery had the claim before the step: the permit's claim is an issued one.
  have hheld : (s.sys.tasks i).claim = some p.claim := by
    rcases Sys.claim_exec hreach ha hclaim with hheld | ⟨hfresh, -⟩
    · exact hheld
    · exact absurd (hissued u p hp).2 hfresh
  rcases Sys.tasks_exec ha i with ⟨htask, hlabel⟩ | htask | ⟨hentry, -⟩ | ⟨input, offset, rfl, -, hstep⟩
  · rw [htask]
    exact h.fits u p i (holder_exec hr ha hp hheld hlabel) hheld
  · rw [htask] at hclaim
    contradiction
  · generalize ((sysMachine svc).exec label s.sys).tasks i = task at hentry hclaim
    cases task <;> contradiction
  · obtain ⟨rfl, -⟩ := hissued u p hp
    change s.permitsAfter svc (.resume i input offset) p.claim.watch.watchId = some p at hp
    simp only [permitsAfter, hheld, Function.update_self] at hp
    exact hstep.permit_fits hp hheld fun p₀ hlast hholds => h.fits _ p₀ i hlast hholds

/-- In every reachable state the permits are in line with the deliveries. -/
theorem inv {s : PermitSys} (h : (permitMachine svc).Reach s) : s.Inv := by
  refine h.invariant (P := Inv) ?_ fun s label hr ih ha => ih.exec hr ha
  rintro s ⟨-, hnone⟩
  exact ⟨fun u p hp => absurd ((hnone u).symm.trans hp) (by simp),
    fun u p i hp => absurd ((hnone u).symm.trans hp) (by simp)⟩

/-! ## Cancellations -/

/-- Cancellations are conservative: an `auto_book` watch is cancelled only when its last booking permit
is settled. -/
def Conservative (s : PermitSys) : Prop :=
  ∀ u w p, (s.row u).watch = some w → w.autoBook = true → w.status = .cancelled →
    s.permits u = some p → p.Settled

/-- A step that cancels an `auto_book` watch while the last permit is open. -/
inductive Overrides (s : PermitSys) : SysLabel → Prop
  /-- `cancel_if_active` finds no booking phase. -/
  | cancel {label : SysLabel} {u : String} {w : Watch} {p : Permit}
      (hop : s.sys.op label = some (.cancel u)) (hwatch : (s.row u).watch = some w)
      (hactive : w.status = .active) (hauto : w.autoBook = true)
      (hphase : ∀ rt, (s.row u).runtime = some rt → rt.phase ≠ some .booking)
      (hpermit : s.permits u = some p) (hopen : ¬ p.Settled) : Overrides s label
  /-- A delivery that does not hold the last permit commits the cancellation. -/
  | commit {i : ℕ} {input : Input} {offset : ℚ} {c : WindowClaim} {plan : Plan} {p : Permit}
      (htask : s.sys.tasks i = .committing c .cancelled plan)
      (howns : (s.row c.watch.watchId).Owns s.sys.store.now c) (hauto : c.watch.autoBook = true)
      (hpermit : s.permits c.watch.watchId = some p) (hother : p.claim ≠ c) (hopen : ¬ p.Settled) :
      Overrides s (.resume i input offset)

/-- A step that calls the store leaves the permits alone, unless it is `begin_booking`. -/
theorem permits_of_op {s : PermitSys} {label : SysLabel} {op : Op} (hop : s.sys.op label = some op)
    (hne : ∀ c, op ≠ .begin c) : ((permitMachine svc).exec label s).permits = s.permits := by
  cases label with
  | tick | start | crash | maintain => rfl
  | resume i input offset =>
    change s.permitsAfter svc (.resume i input offset) = s.permits
    simp only [Sys.op] at hop
    cases htask : s.sys.tasks i with
    | creating | cancelling | expiring | claiming => simp only [permitsAfter, htask, Task.claim]
    | releasing c | committing c =>
      simp only [permitsAfter, htask, Task.claim]
      rw [Task.permit_of_done (by simp), Function.update_eq_self]
    | permitting =>
      rw [htask] at hop
      simp only [Task.op] at hop
      split_ifs at hop
      exact absurd (Option.some.inj hop).symm (hne _)
    | _ =>
      rw [htask] at hop
      simp [Task.op] at hop

/-- A permit of a watch that is cancelled is left alone, when it is settled. -/
theorem permits_of_settled {s : PermitSys} (hr : (permitMachine svc).Reach s) {label : SysLabel}
    (ha : (permitMachine svc).allowed s label) {u : String} {w : Watch}
    (hw : (s.row u).watch = some w) (hcancelled : w.status = .cancelled)
    (hsettled : ∀ p, s.permits u = some p → p.Settled) {p : Permit}
    (hp : ((permitMachine svc).exec label s).permits u = some p) : s.permits u = some p := by
  rcases permits_exec ha hp with hold | ⟨i, offset, c, now, slots, permitId, -, -, rfl, -, hreply⟩ |
    ⟨i, input, offset, p₀, -, hlast, hholds, -, htask⟩
  · exact hold
  · -- A permit is granted on an active watch only.
    obtain ⟨r, -, he⟩ := Store.effect_of_reply hreply rfl
    cases he with
    | begin hwatch _ hactive =>
      obtain rfl := Option.some.inj (hwatch.symm.trans hw)
      rw [hcancelled] at hactive
      contradiction
  · exact absurd (hsettled p₀ hlast) (((inv hr).fits u p₀ i hlast hholds).not_settled htask)

/-- A step that overrides no permit keeps the cancellations conservative. -/
theorem Conservative.exec {s : PermitSys} (hr : (permitMachine svc).Reach s) {label : SysLabel}
    (ha : (permitMachine svc).allowed s label) (hgood : ¬ s.Overrides label) (h : s.Conservative) :
    ((permitMachine svc).exec label s).Conservative := by
  intro u w p hw hauto hcancelled hp
  rcases Sys.ends_exec (reach_sys hr) ha hw (by simp [hcancelled]) with hold |
    ⟨w₀, hop, hw₀, hactive, hphase, rfl⟩ | ⟨w₀, hop, hw₀, hactive, hdue, rfl⟩ |
    ⟨i, input, offset, c, verdict, plan, now, offset', rfl, htask, hplan, rfl, howns, rfl, hw₀, hactive⟩
  · have hsettled : ∀ p, s.permits u = some p → p.Settled :=
      fun p hlast => h u w p hold hauto hcancelled hlast
    exact hsettled p (permits_of_settled hr ha hold hcancelled hsettled hp)
  · rw [permits_of_op hop (by simp)] at hp
    by_contra hopen
    exact hgood (.cancel hop hw₀ hactive hauto hphase hp hopen)
  · contradiction
  · have hverdict : verdict = .cancelled := Verdict.plan_cancelled hactive (hplan ▸ hcancelled)
    have hplanAuto : plan.watch.autoBook = c.watch.autoBook := by
      rw [hplan]
      exact Verdict.plan_autoBook ..
    rw [permits_of_op (Sys.op_committing htask input offset) (by simp)] at hp
    rw [hverdict] at htask
    by_contra hopen
    by_cases hholds : p.claim = c
    · -- The delivery that holds the permit has found that there is no booking.
      have hfits := (inv hr).fits _ p i hp (by rw [htask, hholds]; rfl)
      rw [htask] at hfits
      exact hopen hfits
    · exact hgood (.commit htask howns (hplanAuto ▸ hauto) hp hholds hopen)

/-- A step that overrides a permit cancels a watch whose permit is open. -/
theorem Overrides.not_conservative {s : PermitSys} (hr : (permitMachine svc).Reach s)
    {label : SysLabel} (h : s.Overrides label) :
    ¬ ((permitMachine svc).exec label s).Conservative := by
  obtain ⟨hwf, hstore⟩ := Sys.wf_and_store (reach_sys hr)
  intro hcons
  cases h with
  | @cancel _ u w p hop hwatch hactive hauto hphase hpermit hopen =>
    have hw : ((((permitMachine svc).exec label s).row u).watch) =
        some (w.ended .cancelled s.sys.store.now) := by
      change (((sysMachine svc).exec label s.sys).store.row u).watch = _
      rw [Sys.store_of_op hop]
      exact Store.cancel_row hwatch hactive hphase
    refine hopen (hcons u _ p hw hauto rfl ?_)
    rw [permits_of_op hop (by simp)]
    exact hpermit
  | @commit i input offset c plan p htask howns hauto hpermit hother hopen =>
    have hop := Sys.op_committing htask input offset
    obtain ⟨hc, now, offset', hplan⟩ : c ∈ s.sys.store.issued ∧
        ∃ now offset, plan = Verdict.cancelled.plan svc c now offset := by
      simpa [htask, Task.Wf] using hwf i
    have hplanAuto : plan.watch.autoBook = c.watch.autoBook := by
      rw [hplan]
      exact Verdict.plan_autoBook ..
    have hstatus : plan.watch.status = .cancelled := by rw [hplan]; rfl
    have hw : ((((permitMachine svc).exec (.resume i input offset) s).row c.watch.watchId).watch) =
        some plan.watch := by
      change (((sysMachine svc).exec (.resume i input offset) s.sys).store.row c.watch.watchId).watch = _
      rw [Sys.store_of_op hop]
      exact Store.commit_ends (Store.lawful_of_served hstore) hc howns (by simp [hstatus]) _
    refine hopen (hcons _ _ p hw (hplanAuto.trans hauto) hstatus ?_)
    rw [permits_of_op hop (by simp)]
    exact hpermit

/-- Cancellations are conservative exactly as long as no step overrides a permit. -/
theorem conservative_exactlyWhen :
    (permitMachine svc).ExactlyWhen Conservative fun s label => ¬ s.Overrides label where
  holds s hs := by
    refine hs.invariant ?_ fun s label hr h ha => h.exec hr.of_restrict ha.1 ha.2
    rintro s ⟨-, hnone⟩ u w p - - - hp
    exact absurd ((hnone u).symm.trans hp) (by simp)
  breaks s label hs _ hbad := (not_not.mp hbad).not_conservative hs.of_restrict

/-- In a run of the service over any provider the cancellations are conservative throughout if and only
if no step of it cancels a watch whose last permit is open: a `cancel_if_active` that finds no booking
phase, or a delivery that does not hold the permit. -/
theorem conservative_iff {s : PermitSys} (hs : (permitMachine svc).init s) {labels : List SysLabel}
    (hr : (permitMachine svc).Runs s labels) :
    (permitMachine svc).Always Conservative s labels ↔
      (permitMachine svc).EachStep (fun s label => ¬ s.Overrides label) s labels :=
  conservative_exactlyWhen.always_iff hs hr

/-! ## The booking phase -/

/-- A delivery that owns its watch commits a successor window while the last permit is open. -/
def Clears (s : PermitSys) (label : SysLabel) : Prop :=
  ∃ i input offset c verdict plan p, label = .resume i input offset ∧
    s.sys.tasks i = .committing c verdict plan ∧ plan.watch.status = .active ∧
    (s.row c.watch.watchId).Owns s.sys.store.now c ∧ s.permits c.watch.watchId = some p ∧ ¬ p.Settled

/-- An active watch whose last permit is open is in its booking phase. -/
def Guarded (s : PermitSys) : Prop :=
  ∀ u w p, (s.row u).watch = some w → w.status = .active → s.permits u = some p → ¬ p.Settled →
    (s.row u).Booking

/-- The last permit of a watch was open before a step, when it is open after it and was not granted
just now. -/
theorem open_exec {s : PermitSys} (hr : (permitMachine svc).Reach s) {label : SysLabel}
    (ha : (permitMachine svc).allowed s label) {u : String} {p : Permit}
    (hp : ((permitMachine svc).exec label s).permits u = some p) (hopen : ¬ p.Settled) :
    (∃ p₀, s.permits u = some p₀ ∧ ¬ p₀.Settled) ∨
    ∃ c permitId, s.sys.op label = some (.begin c) ∧ c.watch.watchId = u ∧
      s.sys.store.reply (.begin c) = .begin (.granted permitId) := by
  rcases permits_exec ha hp with hold | ⟨i, offset, c, now, slots, permitId, rfl, htask, hid, -, hreply⟩ |
    ⟨i, input, offset, p₀, -, hlast, hholds, -, htask⟩
  · exact .inl ⟨p, hold, hopen⟩
  · refine .inr ⟨c, permitId, ?_, hid, hreply⟩
    simp only [Sys.op, htask, Task.op, if_pos]
  · exact .inl ⟨p₀, hlast, ((inv hr).fits u p₀ i hlast hholds).not_settled htask⟩

/-- A step that clears no booking phase keeps the watches with an open permit in theirs. -/
theorem Guarded.exec {s : PermitSys} (hr : (permitMachine svc).Reach s) {label : SysLabel}
    (ha : (permitMachine svc).allowed s label) (hgood : ¬ s.Clears label) (h : s.Guarded) :
    ((permitMachine svc).exec label s).Guarded := by
  obtain ⟨hwf, hstore⟩ := Sys.wf_and_store (reach_sys hr)
  have hl := Store.lawful_of_served hstore
  intro u w p hw hactive hp hopen
  change ((((sysMachine svc).exec label s.sys).store.row u).watch) = some w at hw
  change (((sysMachine svc).exec label s.sys).store.row u).Booking
  rcases open_exec hr ha hp hopen with ⟨p₀, hlast, hopen₀⟩ | ⟨c, permitId, hop, rfl, hreply⟩
  · rcases Sys.exec_store svc s.sys label with he | ⟨now, -, he⟩ <;> rw [he] at hw ⊢
    · cases hop : s.sys.op label with
      | none =>
        rw [hop] at hw
        exact h u w p₀ hw hactive hlast hopen₀
      | some op =>
        rw [hop] at hw
        have hserved := Sys.served_op hwf ha hop
        refine Store.booking_call hstore hserved ?_ (fun w hw ha => h u w p₀ hw ha hlast hopen₀) ?_ hw
          hactive
        · obtain ⟨hid, hissued⟩ := (inv hr).issued u p₀ hlast
          refine (Store.keyed hl u).issued fun hnil => ?_
          exact absurd (hnil ▸ Store.mem_issuedFor.mpr ⟨hissued, hid⟩) List.not_mem_nil
        · rintro c nw nr rfl rfl howns hnew
          obtain ⟨i, input, offset, verdict, plan, hlabel, htask, rfl, -⟩ := Sys.commit_of_op ha hop
          exact hgood ⟨i, input, offset, c, verdict, plan, p₀, hlabel, htask, hnew, howns, hlast, hopen₀⟩
    · exact h u w p₀ hw hactive hlast hopen₀
  · rw [Sys.store_of_op hop]
    obtain ⟨r, hrow, he⟩ := Store.effect_of_reply hreply rfl
    change (s.sys.store.call (.begin c)).row c.watch.watchId = r at hrow
    rw [hrow]
    cases he with
    | begin => exact ⟨_, rfl, rfl⟩

/-- As long as no delivery commits a successor window over an open permit, an active watch with an open
permit is in its booking phase: `cancel_if_active` records the cancellation and does not override the
permit. -/
theorem guarded {s : PermitSys}
    (h : ((permitMachine svc).restrict fun s label => ¬ s.Clears label).Reach s) : s.Guarded := by
  refine h.invariant ?_ fun s label hr ih ha => ih.exec hr.of_restrict ha.1 ha.2
  rintro s ⟨-, hnone⟩ u w p - - hp
  exact absurd ((hnone u).symm.trans hp) (by simp)

/-- The service before anything happens. -/
def fresh : PermitSys := ⟨Sys.fresh, fun _ => none⟩

theorem fresh_init : (permitMachine svc).init fresh := ⟨Sys.fresh_init, fun _ => rfl⟩

/-- A run in which the provider does not answer `book_slot` in time, the delivery commits the outage,
and the watch is cancelled after that. -/
def clearedRun : List SysLabel :=
  Sys.permitRun ++ [.resume 1 (.failed .timeout) 0, .resume 1 .proceed 0,
    .start 2 (.cancelling "w"), .resume 2 .proceed 0]

/-- The service after the run `clearedRun`. -/
def clearedSys : PermitSys := (permitMachine .sample).final fresh clearedRun

theorem clearedRun_runs : (permitMachine .sample).Runs fresh clearedRun := by decide +kernel

/-- After the run `clearedRun` the watch is cancelled, and nobody knows whether it is booked. -/
theorem clearedSys_not_conservative : ¬ clearedSys.Conservative := by
  intro h
  have hwatch : (((clearedSys.row "w").watch.filter fun w => w.autoBook).map Watch.status) =
      some .cancelled := by decide +kernel
  obtain ⟨w, hw, hstatus⟩ := Option.map_eq_some_iff.mp hwatch
  obtain ⟨hw, hauto⟩ := Option.filter_eq_some_iff.mp hw
  have hpermit : (clearedSys.permits "w").any (fun p => decide ¬ p.Settled) = true := by decide +kernel
  obtain ⟨p, hp, hopen⟩ := (Option.any_eq_true ..).mp hpermit
  exact of_decide_eq_true hopen (h "w" w p hw hauto hstatus hp)

/-- A watch can be cancelled although the booking that was tried under its last permit is open. -/
theorem cancellation_not_conservative :
    ¬ ∀ s, (permitMachine .sample).Reach s → s.Conservative :=
  fun h => clearedSys_not_conservative (h clearedSys
    ((Machine.Reach.init fresh_init).final clearedRun_runs))

/-- In the run `clearedRun` a step overrides the permit. -/
theorem conservative_iff_cleared :
    ¬ (permitMachine .sample).EachStep (fun s label => ¬ s.Overrides label) fresh clearedRun := fun h =>
  clearedSys_not_conservative ((conservative_iff fresh_init clearedRun_runs).mpr h).final

end PermitSys

end Dibs
