import Dibs.Service.Endings
import Dibs.Service.Provider

/-!
# Confirmed bookings are kept

A watch that ends without a booking should end because there is none. The service asks the provider
on some paths: a delivery that finds nothing, or that resolves a cancellation, was told before that
the provider holds no booking (`Task.denied`), and this stays true until another delivery books for
the watch (`Inv.denied`). On other paths nobody asks (`Unasked`): a cancellation that finds no booking
phase, an expiry, a delivery that is exhausted before it starts, and an outage near the deadline.

`bookings_kept_iff` says exactly when no confirmed booking is discarded. That a booked watch carries
the confirmation that the provider holds needs no condition (`Inv.booked`).
-/

namespace Dibs

namespace MockSys

variable {svc : WatchService}

/-- What the provider and the deliveries know of each other. -/
structure Inv (s : MockSys) : Prop where
  /-- The provider's tables are guarded. -/
  guarded : s.mock.Guarded s.now
  /-- The bookings of watches last for the retention. -/
  dated : ∀ u b, s.mock.bookings.get? (idempotencyKey u) = some b →
    b.protectedUntil = b.confirmation.createdAt + s.mock.retention
  /-- What the provider has told the deliveries is true. -/
  told : ∀ i, s.Told (s.answers i) (s.sys.tasks i)
  /-- A delivery that was denied a booking is right, until another one books. -/
  denied : ∀ i u, (s.sys.tasks i).denied (s.answers i) = some u → s.overtaken i = false → ¬ s.Holds u
  /-- A booked watch carries a confirmation that the provider gave for it. -/
  booked : ∀ u w, (s.row u).watch = some w → w.status = .booked →
    ∃ c, w.booking = some c ∧ s.Genuine u c

/-- A step that ends a watch and that nobody has asked the provider for. -/
inductive Unasked (s : MockSys) : SysLabel → String → Prop
  /-- `cancel_if_active` finds no booking phase. -/
  | cancel {label : SysLabel} {u : String} {w : Watch} (hop : s.sys.op label = some (.cancel u))
      (hwatch : (s.row u).watch = some w) (hactive : w.status = .active)
      (hphase : ∀ rt, (s.row u).runtime = some rt → rt.phase ≠ some .booking) : Unasked s label u
  /-- `expire_if_eligible` finds the time or the attempts over. -/
  | expire {label : SysLabel} {u : String} {w : Watch}
      (hop : s.sys.op label = some (.expire u none false)) (hwatch : (s.row u).watch = some w)
      (hactive : w.status = .active) (hdue : w.isExhausted s.now = true) : Unasked s label u
  /-- A delivery was exhausted before it started, or has an outage too close to the deadline. -/
  | commit {i : ℕ} {input : Input} {offset : ℚ} {c : WindowClaim} {verdict : Verdict} {plan : Plan}
      (htask : s.sys.tasks i = .committing c verdict plan) (howns : (s.row c.watch.watchId).Owns s.now c)
      (hends : plan.watch.status ≠ .active)
      (hverdict : verdict = .exhausted ∨ ∃ error, verdict = .outage error) :
      Unasked s (.resume i input offset) c.watch.watchId
  /-- A delivery was denied a booking before another one booked. -/
  | overtaken {i : ℕ} {input : Input} {offset : ℚ} {c : WindowClaim} {verdict : Verdict} {plan : Plan}
      (htask : s.sys.tasks i = .committing c verdict plan) (howns : (s.row c.watch.watchId).Owns s.now c)
      (hends : plan.watch.status ≠ .active) (hverdict : verdict = .miss ∨ verdict = .cancelled)
      (hovertaken : s.overtaken i = true) : Unasked s (.resume i input offset) c.watch.watchId

/-- A step that discards a booking of an `auto_book` watch: it ends the watch without asking while the
provider holds a booking, or books for a watch that has ended without one. -/
def Discards (s : MockSys) : MockLabel → Prop
  | .sys label => ∃ u w, s.Unasked label u ∧ (s.row u).watch = some w ∧ w.autoBook = true ∧ s.Holds u
  | .serve i bookingId => ∃ u w, s.Books i bookingId u ∧ (s.row u).watch = some w ∧
      w.autoBook = true ∧ w.status ≠ .active ∧ w.status ≠ .booked
  | .other _ => False

/-- No confirmed booking is discarded: for an `auto_book` watch that ended otherwise the provider holds
none, and one that is booked carries the confirmation that the provider holds until its retention
ends. -/
def Kept (s : MockSys) : Prop :=
  ∀ u w, (s.row u).watch = some w → w.autoBook = true →
    (w.status ≠ .active → w.status ≠ .booked → s.mock.getBooking (idempotencyKey u) s.now = none) ∧
    (w.status = .booked → ∃ c, w.booking = some c ∧ (s.now < c.createdAt + s.mock.retention →
      s.mock.getBooking (idempotencyKey u) s.now = some c))

/-- The runs over the provider are runs of the service. -/
theorem reach_sys {s : MockSys} (h : (mockSysMachine svc).Reach s) : (sysMachine svc).Reach s.sys := by
  refine h.map (M := mockSysMachine svc) (N := sysMachine svc) (f := MockSys.sys) (fun s h => h.1) ?_
  rintro s label - - ha
  cases label with
  | sys label => exact .single ⟨label, ha.1, rfl⟩
  | other op => exact .refl
  | serve i bookingId =>
    obtain ⟨⟨input, mock⟩, hreply⟩ := Option.ne_none_iff_exists'.mp ha.2
    have hsys : ((mockSysMachine svc).exec (.serve i bookingId) s).sys = s.sys := (serve_eq hreply).2.2.1
    rw [hsys]
    exact .refl

/-- Time only lets bookings end. -/
theorem Evolves.holds_of_same {s s' : MockSys} (he : s.Evolves s') (hmock : s'.mock = s.mock)
    {u : String} (h : s'.Holds u) : s.Holds u := by
  rw [holds_iff] at h ⊢
  obtain ⟨b, hb, hlive⟩ := h
  exact ⟨b, hmock ▸ hb, lt_of_le_of_lt he.now hlive⟩

/-- The deliveries after a step of the service know what they knew before. -/
theorem Inv.tasks {s : MockSys} (h : s.Inv) {label : SysLabel}
    (ha : (mockSysMachine svc).allowed s (.sys label)) (i : ℕ) :
    s.Told (s.answersAfter label i) (((sysMachine svc).exec label s.sys).tasks i) ∧
      ∀ u, (((sysMachine svc).exec label s.sys).tasks i).denied (s.answersAfter label i) = some u →
        (s.sys.tasks i).denied (s.answers i) = some u := by
  rcases Sys.tasks_exec ha.1 i with ⟨htask, hlabel⟩ | htask | ⟨hentry, -⟩ | ⟨input, offset, rfl, -, hstep⟩
  · rw [htask, answersAfter, if_neg hlabel]
    exact ⟨h.told i, fun _ hu => hu⟩
  · rw [htask]
    exact ⟨trivial, by simp [Task.denied]⟩
  · generalize ((sysMachine svc).exec label s.sys).tasks i = task at hentry
    cases task with
    | creating | cancelling | expiring | resolving | claiming =>
      exact ⟨trivial, by simp [Task.denied]⟩
    | _ => exact absurd hentry id
  · have hdel : (s.sys.tasks i).Delivered (s.answers i) input := ha.2
    have hnone : s.answersAfter (.resume i input offset) i = none := if_pos rfl
    rw [hnone]
    exact ⟨hstep.told (h.told i) hdel, fun u hu => hstep.denied (h.told i) hdel hu⟩

/-- What a step of the service does to a watch that it leaves ended: nothing, or it ends the watch by a
cancellation, an expiry or the commit of a delivery that owns it. -/
theorem ends_exec {s : MockSys} (hr : (sysMachine svc).Reach s.sys) {label : SysLabel}
    (ha : (sysMachine svc).allowed s.sys label) {u : String} {w : Watch}
    (hw : (((sysMachine svc).exec label s.sys).store.row u).watch = some w) (hne : w.status ≠ .active) :
    (s.row u).watch = some w ∨
    (∃ w₀, s.Unasked label u ∧ (s.row u).watch = some w₀ ∧
      (w = w₀.ended .cancelled s.now ∨ w = w₀.ended .expired s.now)) ∨
    ∃ i input offset c verdict plan now offset', label = .resume i input offset ∧
      s.sys.tasks i = .committing c verdict plan ∧ plan = verdict.plan svc c now offset' ∧
      c.watch.watchId = u ∧ (s.row u).Owns s.now c ∧ w = plan.watch ∧ (s.row u).watch = some c.watch ∧
      c.watch.status = .active := by
  rcases Sys.ends_exec hr ha hw hne with hold | ⟨w₀, hop, hw₀, hactive, hphase, rfl⟩ |
    ⟨w₀, hop, hw₀, hactive, hdue, rfl⟩ | hcommit
  · exact .inl hold
  · exact .inr (.inl ⟨w₀, .cancel hop hw₀ hactive hphase, hw₀, .inl rfl⟩)
  · exact .inr (.inl ⟨w₀, .expire hop hw₀ hactive hdue, hw₀, .inr rfl⟩)
  · exact .inr (.inr hcommit)

/-- Every step keeps the invariant. -/
theorem Inv.exec {s : MockSys} (hr : (mockSysMachine svc).Reach s) (h : s.Inv) {label : MockLabel}
    (ha : (mockSysMachine svc).allowed s label) : ((mockSysMachine svc).exec label s).Inv := by
  have hevolves := evolves h.guarded h.dated ha
  cases label with
  | sys label =>
    refine ⟨h.guarded.mono hevolves.now, h.dated, fun i => (h.tasks ha i).1.mono hevolves,
      fun i u hu hov hholds => ?_, fun u w hw hbooked => ?_⟩
    · exact h.denied i u ((h.tasks ha i).2 u hu) hov (hevolves.holds_of_same rfl hholds)
    · rcases ends_exec (reach_sys hr) ha.1 hw (by simp [hbooked]) with
        hold | ⟨w₀, -, -, rfl | rfl⟩ | ⟨i, input, offset, c, verdict, plan, now, offset', -, htask, rfl,
          rfl, -, rfl, -, hactive⟩
      · obtain ⟨c, hc, hgenuine⟩ := h.booked u w hold hbooked
        exact ⟨c, hc, hgenuine.mono hevolves⟩
      · contradiction
      · contradiction
      · obtain ⟨confirmation, attempted, rfl, hbooking⟩ := Verdict.plan_booked hactive hbooked
        have htold := h.told i
        rw [htask] at htold
        exact ⟨confirmation, hbooking, Genuine.mono hevolves htold⟩
  | other op =>
    refine ⟨(h.guarded.call op).1, fun u b hb => ?_, fun i => (h.told i).mono hevolves,
      fun i u hu hov hholds => h.denied i u hu hov ?_, fun u w hw hbooked => ?_⟩
    · rw [hevolves.retention]
      exact h.dated u b (bookings_of_foreign h.guarded ha hb)
    · rw [holds_iff] at hholds ⊢
      obtain ⟨b, hb, hlive⟩ := hholds
      exact ⟨b, bookings_of_foreign h.guarded ha hb, hlive⟩
    · obtain ⟨c, hc, hgenuine⟩ := h.booked u w hw hbooked
      exact ⟨c, hc, hgenuine.mono hevolves⟩
  | serve i bookingId =>
    have hserved := serve_served h.guarded h.dated ha.2
    obtain ⟨⟨input, mock⟩, hreply⟩ := Option.ne_none_iff_exists'.mp ha.2
    obtain ⟨-, hnow, hsys, hanswers⟩ := serve_eq hreply
    have hother : ∀ j, j ≠ i → (s.serve i bookingId).answers j = s.answers j := by
      intro j hj
      rw [hanswers, Function.update_of_ne hj]
    refine ⟨hserved.guarded, fun u b hb => ?_, fun j => ?_, fun j u hu hov => ?_, fun u w hw hbooked => ?_⟩
    · change _ = _ + (s.serve i bookingId).mock.retention
      rw [hserved.evolves.retention]
      rcases hserved.bookings u b hb with hold | ⟨hdated, -⟩
      · exact h.dated u b hold
      · exact hdated
    · change (s.serve i bookingId).Told ((s.serve i bookingId).answers j) ((s.serve i bookingId).sys.tasks j)
      rw [hsys]
      by_cases hj : j = i
      · rw [hj]
        exact hserved.told
      · rw [hother j hj]
        exact (h.told j).mono hserved.evolves
    · change ((s.serve i bookingId).sys.tasks j).denied ((s.serve i bookingId).answers j) = some u at hu
      rw [hsys] at hu
      by_cases hj : j = i
      · rw [hj] at hu
        exact hserved.denied u hu
      · rw [hother j hj] at hu
        obtain ⟨hov, hsame⟩ := serve_overtaken ha.2 hj hov
        intro hholds
        obtain ⟨b, hb, hlive⟩ := (holds_iff _ u).mp hholds
        rcases hserved.bookings u b hb with hold | ⟨-, hbooks⟩
        · refine h.denied j u hu hov ((holds_iff s u).mpr ⟨b, hold, ?_⟩)
          rw [← hnow]
          exact hlive
        · -- The new booking overtakes every other delivery for the watch.
          exact hsame hbooks.changed ((Task.watchId_of_denied hu).trans hbooks.watchId.symm)
    · have hrow : (s.serve i bookingId).row u = s.row u := by rw [row, hsys, row]
      change ((s.serve i bookingId).row u).watch = some w at hw
      rw [hrow] at hw
      obtain ⟨c, hc, hgenuine⟩ := h.booked u w hw hbooked
      exact ⟨c, hc, hgenuine.mono hserved.evolves⟩

/-- The invariant holds in every reachable state. -/
theorem inv {s : MockSys} (h : (mockSysMachine svc).Reach s) : s.Inv := by
  refine h.invariant ?_ fun s label hr hs ha => hs.exec hr ha
  rintro s ⟨⟨⟨retention, hmem, -⟩, htasks, -⟩, ⟨capacity, idleTtl, retention', pin, hpos, hmock⟩, hanswers, -⟩
  refine ⟨?_, fun u b hb => ?_, fun i => ?_, fun i u hu => ?_, fun u w hw => ?_⟩
  · rw [hmock]
    exact ⟨hpos, fun _ _ h => by simp [MockState.empty] at h, fun _ _ h => by simp [MockState.empty] at h⟩
  · simp [hmock, MockState.empty] at hb
  · rw [htasks i]
    trivial
  · simp [htasks i, Task.denied] at hu
  · simp [row, Store.row, hmem, Memory.row_empty, Row.vacant] at hw

/-- A plan that ends a watch otherwise is one of a delivery that has not asked, or was denied. -/
theorem unasked_of_commit {s : MockSys} (h : s.Inv) {i : ℕ} {input : Input} {offset offset' : ℚ}
    {c : WindowClaim} {verdict : Verdict} {now : Time}
    (htask : s.sys.tasks i = .committing c verdict (verdict.plan svc c now offset'))
    (howns : (s.row c.watch.watchId).Owns s.now c) (hauto : c.watch.autoBook = true)
    (hends : (verdict.plan svc c now offset').watch.status ≠ .active)
    (hbooked : (verdict.plan svc c now offset').watch.status ≠ .booked) :
    s.Unasked (.resume i input offset) c.watch.watchId ∨ ¬ s.Holds c.watch.watchId := by
  have hdenied : ∀ v, (v = .miss ∨ v = .cancelled) → verdict = v →
      s.Unasked (.resume i input offset) c.watch.watchId ∨ ¬ s.Holds c.watch.watchId := by
    rintro v hv rfl
    cases hov : s.overtaken i with
    | true => exact .inl (.overtaken htask howns hends hv hov)
    | false =>
      refine .inr (h.denied i _ ?_ hov)
      rcases hv with rfl | rfl <;> simp [htask, Task.denied, hauto]
  cases hv : verdict with
  | exhausted => exact .inl (.commit htask howns hends (.inl hv))
  | outage error => exact .inl (.commit htask howns hends (.inr ⟨error, hv⟩))
  | miss => exact hdenied .miss (.inl rfl) hv
  | cancelled => exact hdenied .cancelled (.inr rfl) hv
  | found slots =>
    -- Only a delivery that does not book reports what it found.
    have htold := h.told i
    rw [htask, hv] at htold
    exact absurd (hauto.symm.trans htold) (by simp)
  | booked confirmation attempted =>
    rw [hv] at hbooked
    exact absurd (by cases attempted <;> rfl) hbooked

/-- A step that discards no booking keeps all of them. -/
theorem Kept.exec {s : MockSys} (hr : (mockSysMachine svc).Reach s) {label : MockLabel}
    (ha : (mockSysMachine svc).allowed s label) (hgood : ¬ s.Discards label) (h : s.Kept) :
    ((mockSysMachine svc).exec label s).Kept := by
  have hinv := inv hr
  have hinv' := inv (hr.step label ha)
  have hevolves := evolves hinv.guarded hinv.dated ha
  intro u w hw hauto
  refine ⟨fun hne hnb => ?_, fun hbooked => ?_⟩
  · -- Whatever has ended otherwise has no booking.
    rw [← not_not (a := _ = none)]
    intro hholds
    change ((mockSysMachine svc).exec label s).Holds u at hholds
    have hold : (s.row u).watch = some w → ¬ s.Holds u := fun hw₀ hh => hh ((h u w hw₀ hauto).1 hne hnb)
    cases label with
    | sys label =>
      have hh : s.Holds u := hevolves.holds_of_same rfl hholds
      rcases ends_exec (reach_sys hr) ha.1 hw hne with
        hw₀ | ⟨w₀, hunasked, hw₀, hended⟩ | ⟨i, input, offset, c, verdict, plan, now, offset', rfl, htask,
          rfl, rfl, howns, rfl, hw₀, -⟩
      · exact hold hw₀ hh
      · refine hgood ⟨u, w₀, hunasked, hw₀, ?_, hh⟩
        rcases hended with rfl | rfl <;> exact hauto
      · rw [Verdict.plan_autoBook] at hauto
        rcases unasked_of_commit hinv htask howns hauto hne hnb with hunasked | hnot
        · exact hgood ⟨_, _, hunasked, hw₀, hauto, hh⟩
        · exact hnot hh
    | other op =>
      rw [holds_iff] at hholds
      obtain ⟨b, hb, hlive⟩ := hholds
      exact hold hw ((holds_iff s u).mpr ⟨b, bookings_of_foreign hinv.guarded ha hb, hlive⟩)
    | serve i bookingId =>
      have hserved := serve_served hinv.guarded hinv.dated ha.2
      obtain ⟨⟨input, mock⟩, hreply⟩ := Option.ne_none_iff_exists'.mp ha.2
      obtain ⟨-, hnow, hsys, -⟩ := serve_eq hreply
      have hw₀ : (s.row u).watch = some w := by
        rw [row, ← hsys]
        exact hw
      rw [holds_iff] at hholds
      obtain ⟨b, hb, hlive⟩ := hholds
      rcases hserved.bookings u b hb with hsame | ⟨-, hbooks⟩
      · refine hold hw₀ ((holds_iff s u).mpr ⟨b, hsame, ?_⟩)
        rw [← hnow]
        exact hlive
      · exact hgood ⟨u, w, hbooks, hw₀, hauto, hne, hnb⟩
  · obtain ⟨c, hc, hgenuine⟩ := hinv'.booked u w hw hbooked
    refine ⟨c, hc, fun hlive => ?_⟩
    exact (MockState.getBooking_eq_some_iff _ _ _ _).mpr ⟨_, hgenuine hlive, hlive, rfl⟩

/-- A step that ends a watch unasked makes a call. -/
theorem Unasked.op {s : MockSys} {label : SysLabel} {u : String} (h : s.Unasked label u) :
    ∃ op, s.sys.op label = some op := by
  cases h with
  | cancel hop | expire hop => exact ⟨_, hop⟩
  | commit htask | overtaken htask => exact ⟨_, Sys.op_committing htask _ _⟩

/-- A watch that ends unasked has ended after the step, and not with a booking. -/
theorem Unasked.ends {s : MockSys} (hr : (mockSysMachine svc).Reach s) {label : SysLabel} {u : String}
    (h : s.Unasked label u) {w₀ : Watch} (hw₀ : (s.row u).watch = some w₀) :
    ∃ w, (((mockSysMachine svc).exec (.sys label) s).row u).watch = some w ∧
      w.autoBook = w₀.autoBook ∧ w.status ≠ .active ∧ w.status ≠ .booked := by
  obtain ⟨hwf, hstore⟩ := Sys.wf_and_store (reach_sys hr)
  have hl := Store.lawful_of_served hstore
  have hcall : ∀ {op}, s.sys.op label = some op →
      ((mockSysMachine svc).exec (.sys label) s).sys.store = s.sys.store.call op :=
    fun hop => Sys.store_of_op hop
  -- A delivery that owns its watch commits its plan.
  have hcommit : ∀ {i input offset c verdict plan}, label = .resume i input offset →
      s.sys.tasks i = .committing c verdict plan → (s.row c.watch.watchId).Owns s.now c →
      plan.watch.status ≠ .active → c.watch.watchId = u →
      (∀ confirmation attempted, verdict ≠ .booked confirmation attempted) →
      ∃ w, (((mockSysMachine svc).exec (.sys label) s).row u).watch = some w ∧
        w.autoBook = w₀.autoBook ∧ w.status ≠ .active ∧ w.status ≠ .booked := by
    rintro i input offset c verdict plan rfl htask howns hends rfl hverdict
    obtain ⟨hc, now, offset', rfl⟩ : c ∈ s.sys.store.issued ∧
        ∃ now offset, plan = verdict.plan svc c now offset := by
      simpa [htask, Task.Wf] using hwf i
    obtain rfl := Option.some.inj (hw₀.symm.trans (Store.owned_current hl hc howns).1)
    refine ⟨_, ?_, Verdict.plan_autoBook .., hends, fun hbooked => ?_⟩
    · rw [row, hcall (Sys.op_committing htask input offset)]
      exact Store.commit_ends hl hc howns hends _
    · obtain ⟨confirmation, attempted, hv, -⟩ := Verdict.plan_booked (Store.issued_active hl c hc) hbooked
      exact hverdict confirmation attempted hv
  cases h with
  | cancel hop hwatch hactive hphase =>
    obtain rfl := Option.some.inj (hwatch.symm.trans hw₀)
    refine ⟨Watch.ended _ .cancelled s.now, ?_, rfl, by simp, by simp⟩
    rw [row, hcall hop]
    exact Store.cancel_row hwatch hactive hphase
  | expire hop hwatch hactive hdue =>
    obtain rfl := Option.some.inj (hwatch.symm.trans hw₀)
    refine ⟨Watch.ended _ .expired s.now, ?_, rfl, by simp, by simp⟩
    rw [row, hcall hop]
    exact Store.expire_row hwatch hactive hdue
  | commit htask howns hends hverdict =>
    refine hcommit rfl htask howns hends rfl fun confirmation attempted hv => ?_
    rcases hverdict with rfl | ⟨error, rfl⟩ <;> contradiction
  | overtaken htask howns hends hverdict =>
    refine hcommit rfl htask howns hends rfl fun confirmation attempted hv => ?_
    rcases hverdict with rfl | rfl <;> contradiction

/-- A step that discards a booking leaves its watch ended without it. -/
theorem Discards.not_kept {s : MockSys} (hr : (mockSysMachine svc).Reach s) {label : MockLabel}
    (ha : (mockSysMachine svc).allowed s label) (h : s.Discards label) :
    ¬ ((mockSysMachine svc).exec label s).Kept := by
  intro hkept
  cases label with
  | sys label =>
    obtain ⟨u, w₀, hunasked, hw₀, hauto, hholds⟩ := h
    obtain ⟨w, hw, hsame, hne, hnb⟩ := hunasked.ends hr hw₀
    refine hholds ?_
    have hnone := (hkept u w hw (hsame.trans hauto)).1 hne hnb
    obtain ⟨op, hop⟩ := hunasked.op
    have hnow : ((mockSysMachine svc).exec (.sys label) s).now = s.now := by
      change ((sysMachine svc).exec label s.sys).store.now = _
      rw [Sys.store_of_op hop]
      rfl
    rw [hnow] at hnone
    exact hnone
  | other op => exact h
  | serve i bookingId =>
    obtain ⟨u, w, hbooks, hw, hauto, hne, hnb⟩ := h
    obtain ⟨⟨input, mock⟩, hreply⟩ := Option.ne_none_iff_exists'.mp ha.2
    have hrow : (s.serve i bookingId).row u = s.row u := by rw [row, (serve_eq hreply).2.2.1, row]
    exact hbooks.held ((hkept u w (by
      change ((s.serve i bookingId).row u).watch = some w
      rw [hrow, hw]) hauto).1 hne hnb)

/-- Bookings are kept exactly as long as no step discards one. -/
theorem kept_exactlyWhen :
    (mockSysMachine svc).ExactlyWhen Kept fun s label => ¬ s.Discards label where
  holds s hs := by
    refine hs.invariant ?_ fun s label hr h ha => h.exec hr.of_restrict ha.1 ha.2
    rintro s ⟨⟨⟨retention, hmem, -⟩, -⟩, -⟩ u w hw
    simp [row, Store.row, hmem, Memory.row_empty, Row.vacant] at hw
  breaks s label hs ha hbad := (not_not.mp hbad).not_kept hs.of_restrict ha

/-- No confirmed booking is discarded in any state of a run if and only if no step of the run ends an
`auto_book` watch without asking while the provider holds a booking for it, or books for a watch
that has ended without one. -/
theorem bookings_kept_iff {s : MockSys} (hs : (mockSysMachine svc).init s) {labels : List MockLabel}
    (hr : (mockSysMachine svc).Runs s labels) :
    (mockSysMachine svc).Always Kept s labels ↔
      (mockSysMachine svc).EachStep (fun s label => ¬ s.Discards label) s labels :=
  kept_exactlyWhen.always_iff hs hr

/-- The service and the provider before anything happens. -/
def fresh : MockSys :=
  ⟨.fresh, .empty 8 3600000000 86400000000 60000000, fun _ => none, fun _ => false⟩

theorem fresh_init : (mockSysMachine svc).init fresh :=
  ⟨Sys.fresh_init, ⟨8, 3600000000, 86400000000, 60000000, by decide, rfl⟩, fun _ => rfl, fun _ => rfl⟩

/-- A run in which a delivery claims the first window, up to `get_booking`. -/
def claimRun : List SysLabel :=
  Sys.createRun true ++ [.start 1 (.claiming "w" "w:0" "a" true), .resume 1 .proceed 0,
    .resume 1 .proceed 0]

/-- A run in which a delivery books and crashes before it commits, and the watch then reaches its
deadline. -/
def crashRun : List MockLabel :=
  claimRun.map .sys ++ [.serve 1 "A", .sys (.resume 1 (.booking none) 0), .other (.publish [.sample "s"] "op"),
    .sys (.resume 1 (.slots [.sample "s"]) 0), .sys (.resume 1 .proceed 0), .serve 1 "A",
    .sys (.crash 1), .sys (.tick 1000000000), .sys (.start 2 (.expiring "w")),
    .sys (.resume 2 .proceed 0)]

/-- The state after the run `crashRun`. -/
def crashed : MockSys := (mockSysMachine .sample).final fresh crashRun

theorem crashRun_runs : (mockSysMachine .sample).Runs fresh crashRun := by decide +kernel

/-- After the run `crashRun` the watch is expired while the provider holds its booking. -/
theorem crashed_not_kept : ¬ crashed.Kept := by
  intro h
  have hended : crashed.sys.store.mem.watches.get? "w" =
      some ((Watch.sample "w" true 1000000000 5).ended .expired 1000000000) := by decide +kernel
  have hnone := (h "w" _ hended rfl).1 (by decide) (by decide)
  exact absurd hnone (by decide +kernel)

/-- A confirmed booking can be discarded. -/
theorem booking_discarded : ¬ ∀ s, (mockSysMachine .sample).Reach s → s.Kept := fun h =>
  crashed_not_kept (h crashed ((Machine.Reach.init fresh_init).final crashRun_runs))

/-- In the run `crashRun` a step discards the booking. -/
theorem bookings_kept_iff_crash :
    ¬ (mockSysMachine .sample).EachStep (fun s label => ¬ s.Discards label) fresh crashRun := fun h =>
  crashed_not_kept ((bookings_kept_iff fresh_init crashRun_runs).mpr h).final

end MockSys

end Dibs
