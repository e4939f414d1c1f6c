import Mathlib.Data.Int.Order.Basic
import Dibs.Lib.Lease
import Dibs.Store.Steps

/-!
# Single-flight, fenced windows

The claims on one watch are a fenced lease (`Store.lease`): its counter is the number of claims
issued, the grant in force is the one in the claim table, and its history is the log. `Keyed` is
what ties the tables of a watch to the log, and `lease_step` says that every call is a step of the
lease, whoever makes it and however late. What is known about leases then holds of claims.
-/

namespace Dibs

/-- A claim as a grant of its watch's lease. -/
def WindowClaim.grant (c : WindowClaim) : Grant String Time := ⟨c.token, c.ownerId, c.leaseExpiresAt⟩

/-- An entry of the claim table as a grant. -/
def ClaimLease.grant (l : ClaimLease) : Grant String Time := ⟨l.token, l.ownerId, l.expiresAt⟩

/-- A well-formed row: it is vacant when it has no watch, and otherwise the watch carries the row's id
and has a sidecar, and the fence is `n`. -/
structure Row.Keyed (u : String) (n : ℕ) (r : Row) : Prop where
  /-- Nothing is kept of a watch that is not there. -/
  vacant : r.watch = none → r = Row.vacant
  /-- A watch is stored under its own id. -/
  watchId : ∀ w, r.watch = some w → w.watchId = u
  /-- A watch has a sidecar. -/
  runtime : r.watch ≠ none → r.runtime ≠ none
  /-- The fence of a watch. -/
  fence : r.watch ≠ none → r.fence.getD 0 = n

/-- An effect leaves a watch in its row. -/
theorem Effect.watch_ne_none {d : Duration} {now : Time} {r r' : Row} {op : Op} {reply : Reply}
    {u : String} {n : ℕ} (hr : r.Keyed u n) (he : Effect d now r op reply r') : r'.watch ≠ none := by
  have hheld : r.claim ≠ none ∨ r.dispatchLease ≠ none → r.watch ≠ none := by
    intro h hw
    rw [hr.vacant hw] at h
    simp [Row.vacant] at h
  cases he with
  | release hheld' => exact hheld (.inl (by simp [hheld']))
  | markDispatched hheld' => exact hheld (.inr (by simp [hheld']))
  | releaseDispatch hheld' => exact hheld (.inr (by simp [hheld']))
  | _ => simp_all [Row.reschedule, Row.finish]

/-- Only a creation has an effect on a row without a watch. -/
theorem Effect.create_of_watch_none {d : Duration} {now : Time} {r r' : Row} {op : Op}
    {reply : Reply} {u : String} {n : ℕ} (hr : r.Keyed u n) (he : Effect d now r op reply r')
    (hw : r.watch = none) :
    ∃ w rt, op = .create w rt ∧ reply = .create (.created w rt) := by
  have hv := hr.vacant hw
  cases he with
  | create => exact ⟨_, _, rfl, rfl⟩
  | _ => simp_all [Row.vacant]

/-- An effect that issues no claim leaves the claim in force or drops it. -/
theorem Effect.claim_of_not_owned {d : Duration} {now : Time} {r r' : Row} {op : Op} {reply : Reply}
    (he : Effect d now r op reply r') (hno : ∀ c, reply ≠ .claim (.owned c)) :
    r'.claim = r.claim ∨ r'.claim = none := by
  cases he with
  | claim => exact absurd rfl (hno _)
  | _ => simp [Row.reschedule, Row.finish]

/-- No effect but a creation changes a watch that is not active. -/
theorem Effect.watch_of_inactive {d : Duration} {now : Time} {r r' : Row} {op : Op} {reply : Reply}
    (he : Effect d now r op reply r') (h : ∀ w, r.watch = some w → w.status ≠ .active) :
    (∃ w rt, op = .create w rt ∧ r.watch = none) ∨ r'.watch = r.watch := by
  cases he with
  | create hnone => exact .inl ⟨_, _, rfl, hnone⟩
  | reschedule hwatch _ hactive | finish hwatch _ hactive | cancel hwatch hactive
  | expire hwatch hactive => exact absurd hactive (h _ hwatch)
  | _ => exact .inr rfl

/-- Cleanup keeps a row well formed. -/
theorem Row.Keyed.cleanup {r r' : Row} {u : String} {n : ℕ} (hr : r.Keyed u n)
    (hc : Memory.CleanupStep r r') : r'.Keyed u n := by
  rcases hc with rfl | ⟨-, rfl⟩ | ⟨-, rfl⟩
  · exact hr
  · exact ⟨fun _ => rfl, by simp [Row.vacant], by simp [Row.vacant], by simp [Row.vacant]⟩
  · refine ⟨fun h => ?_, hr.watchId, hr.runtime, hr.fence⟩
    rw [hr.vacant h]
    rfl

/-- An effect keeps a row well formed, and its fence counts the claims. -/
theorem Row.Keyed.effect {d : Duration} {now : Time} {r r' : Row} {op : Op} {reply : Reply}
    {u : String} {n n' : ℕ} (hr : r.Keyed u n) (he : Effect d now r op reply r')
    (ht : op.target = u) (hcreate : ∀ w rt, op = .create w rt → r.watch = none → n = 0)
    (hcommit : ∀ c nw nr, op = .commit c nw nr → nw.watchId = c.watch.watchId)
    (howned : ∀ c, reply = .claim (.owned c) → n' = n + 1)
    (hother : (∀ c, reply ≠ .claim (.owned c)) → n' = n) : r'.Keyed u n' := by
  have hne := he.watch_ne_none hr
  have hid := hr.watchId
  have hrt := hr.runtime
  have hf := hr.fence
  refine ⟨fun h => absurd h hne, fun w hw => ?_, fun _ => ?_, fun _ => ?_⟩
  · cases he with
    | cancel hwatch | expire hwatch =>
      have hid := hid _ hwatch
      obtain rfl := Option.some.inj hw
      exact hid
    | _ => simp_all [Row.reschedule, Row.finish, Op.target]
  · cases he <;> simp_all [Row.reschedule, Row.finish]
  · cases he <;> simp_all [Row.reschedule, Row.finish]

namespace Store

/-- The lease on a watch's windows. -/
def lease (s : Store) (u : String) : Lease String Time where
  fence := (s.issuedFor u).length
  held := (s.row u).claim.map ClaimLease.grant
  issued := (s.issuedFor u).map WindowClaim.grant

/-- The ownership check of the store is that of the lease. -/
theorem lease_owns_iff (s : Store) (u : String) (now : Time) (c : WindowClaim) :
    (s.lease u).Owns c.grant now ↔ (s.row u).Owns now c := by
  cases h : (s.row u).claim with
  | none => simp [Lease.Owns, Row.Owns, lease, h]
  | some held => simp [Lease.Owns, Row.Owns, lease, h, WindowClaim.grant, ClaimLease.grant]

/-- The tables of a watch agree with the log. -/
structure Keyed (s : Store) (u : String) : Prop where
  /-- The row is well formed and counts the claims issued. -/
  row : (s.row u).Keyed u (s.issuedFor u).length
  /-- Only a created watch is there. -/
  created : (s.row u).watch ≠ none → u ∈ s.created
  /-- Only a created watch has claims. -/
  issued : s.issuedFor u ≠ [] → u ∈ s.created

/-- A claim is issued on the stored watch and sidecar, for their window and under the next token. -/
theorem owned_cases {s : Store} {op : Op} {c : WindowClaim} (h : s.reply op = .claim (.owned c)) :
    ∃ lease ignoreSchedule,
      op = .claim op.target c.windowId c.ownerId lease ignoreSchedule ∧
      (s.row op.target).watch = some c.watch ∧ (s.row op.target).runtime = some c.runtime ∧
      c.watch.status = .active ∧ c.runtime.windowId = some c.windowId ∧
      (ignoreSchedule = false → ∀ due, c.runtime.scheduledFor = some due → due ≤ s.now) ∧
      c.token = (s.row op.target).fence.getD 0 + 1 ∧
      (s.call op).row op.target = { s.row op.target with
        fence := some c.token
        claim := some ⟨c.windowId, c.ownerId, c.token, c.leaseExpiresAt⟩ } := by
  obtain ⟨r, hr, he⟩ := effect_of_reply h rfl
  cases he with
  | claim hwatch hruntime hactive hwindow hdue hfree =>
    exact ⟨_, _, rfl, hwatch, hruntime, hactive, hwindow, hdue, rfl, hr⟩

/-- The claims of a watch after a call: a call that issued one for this watch adds it. -/
theorem issuedFor_call {s : Store} (hk : ∀ v, s.Keyed v) (op : Op) (u : String) :
    (∃ c, s.reply op = .claim (.owned c) ∧ op.target = u ∧ c.watch.watchId = u ∧
      (s.call op).issuedFor u = c :: s.issuedFor u) ∨
    ((s.call op).issuedFor u = s.issuedFor u ∧
      (op.target = u → ∀ c, s.reply op ≠ .claim (.owned c))) := by
  by_cases h : ∃ c, s.reply op = .claim (.owned c)
  · obtain ⟨c, hc⟩ := h
    obtain ⟨-, -, -, hw, -⟩ := owned_cases hc
    have hid : c.watch.watchId = op.target := (hk op.target).row.watchId c.watch hw
    have hlog : (s.call op).issued = c :: s.issued := by simp [issued, Entry.claimed, hc]
    by_cases hu : op.target = u
    · exact .inl ⟨c, hc, hu, hid.trans hu, by simp [issuedFor, hlog, hid, hu]⟩
    · exact .inr ⟨by simp [issuedFor, hlog, hid, hu], fun h => absurd h hu⟩
  · refine .inr ⟨?_, fun _ c hc => h ⟨c, hc⟩⟩
    have hnone : Entry.claimed ⟨s.now, op, s.reply op⟩ = none := by
      unfold Entry.claimed
      split
      · rename_i c hc
        exact absurd ⟨c, hc⟩ h
      · rfl
    simp [issuedFor, issued, hnone]

/-- A created watch stays created. -/
theorem created_call {s : Store} {u : String} (op : Op) (h : u ∈ s.created) :
    u ∈ (s.call op).created := by
  simp only [created, call_log, List.filterMap_cons]
  split
  · exact h
  · exact List.mem_cons_of_mem _ h

/-- An issued claim stays issued. -/
theorem issued_call {s : Store} {c : WindowClaim} (op : Op) (h : c ∈ s.issued) :
    c ∈ (s.call op).issued := by
  simp only [issued, call_log, List.filterMap_cons]
  split
  · exact h
  · exact List.mem_cons_of_mem _ h

/-- A call keeps the agreement of the tables with the log. -/
theorem Keyed.call {s : Store} (hk : ∀ v, s.Keyed v) {op : Op} (ho : Lawful s op) (u : String) :
    (s.call op).Keyed u := by
  have hissued : (s.call op).issuedFor u ≠ [] → u ∈ (s.call op).created := by
    intro hne
    rcases issuedFor_call hk op u with ⟨c, hc, ht, -, -⟩ | ⟨he, -⟩
    · obtain ⟨-, -, -, hw, -⟩ := owned_cases hc
      rw [ht] at hw
      exact created_call op ((hk u).created (by simp [hw]))
    · exact created_call op ((hk u).issued (he ▸ hne))
  rcases s.row_call op u with ⟨ht, he⟩ | ⟨hrow, hno⟩ | ⟨⟨due, batchSize, rfl⟩, hc⟩
  · have hcreate : ∀ w rt, op = .create w rt → (s.row u).watch = none →
        (s.issuedFor u).length = 0 := by
      rintro w rt rfl hnone
      subst ht
      by_contra hne
      exact ho.2 hnone ((hk _).issued fun h => hne (List.length_eq_zero_iff.mpr h))
    have hrow : ((s.call op).row u).Keyed u ((s.call op).issuedFor u).length := by
      refine (hk u).row.effect he ht hcreate ?_ ?_ ?_
      · rintro c nw nr rfl
        exact ho.1.2
      · intro c hc
        rcases issuedFor_call hk op u with ⟨c', -, -, -, hl⟩ | ⟨-, hno⟩
        · rw [hl, List.length_cons]
        · exact absurd hc (hno ht c)
      · intro hno
        rcases issuedFor_call hk op u with ⟨c', hc, -⟩ | ⟨hl, -⟩
        · exact absurd hc (hno c')
        · rw [hl]
    refine ⟨hrow, fun _ => ?_, hissued⟩
    by_cases hw : (s.row u).watch = none
    · obtain ⟨w, rt, hop, hre⟩ := he.create_of_watch_none (hk u).row hw
      have hid : w.watchId = u := by rw [← ht, hop, Op.target]
      simp [Store.created, Entry.created, hre, hid]
    · exact created_call op ((hk u).created hw)
  · have hl : (s.call op).issuedFor u = s.issuedFor u := by
      rcases issuedFor_call hk op u with ⟨c, hc, ht, -⟩ | ⟨hl, -⟩
      · have hfalse := (hno ht).1
        rw [hc] at hfalse
        contradiction
      · exact hl
    exact ⟨by rw [hrow, hl]; exact (hk u).row,
      fun h => created_call op ((hk u).created (hrow ▸ h)), hissued⟩
  · have hl : (s.call (.cleanup due batchSize)).issuedFor u = s.issuedFor u := by
      rcases issuedFor_call hk (.cleanup due batchSize) u with ⟨c, hc, -⟩ | ⟨hl, -⟩
      · simp [reply, Memory.call] at hc
      · exact hl
    refine ⟨by rw [hl]; exact (hk u).row.cleanup hc, fun h => created_call _ ((hk u).created ?_),
      hissued⟩
    rcases hc with hc | ⟨-, hc⟩ | ⟨-, hc⟩ <;> rw [hc] at h
    · exact h
    · exact absurd rfl h
    · exact h

/-- In every reachable state the tables agree with the log. -/
theorem keyed {s : Store} (h : (storeMachine Lawful).Reach s) (u : String) : s.Keyed u := by
  refine h.invariant (P := fun s => ∀ u, s.Keyed u) ?_ ?_ u
  · rintro s ⟨d, hm, hl⟩ u
    have hrow : s.row u = Row.vacant := by rw [Store.row, hm, Memory.row_empty]
    have hi : s.issuedFor u = [] := by simp [issuedFor, issued, hl]
    refine ⟨?_, by simp [hrow, Row.vacant], by simp [hi]⟩
    rw [hrow]
    exact ⟨fun _ => rfl, by simp [Row.vacant], by simp [Row.vacant], by simp [Row.vacant]⟩
  · intro s i _ hk ha u
    cases i with
    | tick now => exact ⟨(hk u).row, (hk u).created, (hk u).issued⟩
    | call op => exact Keyed.call hk ha u

/-- Every call is a step of the lease of every watch. -/
theorem lease_call {s : Store} (hk : ∀ v, s.Keyed v) (op : Op) (u : String) :
    Lease.Step (s.lease u) ((s.call op).lease u) := by
  rcases issuedFor_call hk op u with ⟨c, hc, ht, hid, hl⟩ | ⟨hl, hno⟩
  · obtain ⟨-, -, -, hw, -, -, -, -, htoken, hrow⟩ := owned_cases hc
    rw [ht] at hw htoken hrow
    have hcount : c.token = (s.lease u).fence + 1 := by
      rw [htoken, (hk u).row.fence (by simp [hw])]
      rfl
    have hlease : (s.call op).lease u = ⟨(s.lease u).fence + 1,
        some ⟨(s.lease u).fence + 1, c.ownerId, c.leaseExpiresAt⟩,
        ⟨(s.lease u).fence + 1, c.ownerId, c.leaseExpiresAt⟩ :: (s.lease u).issued⟩ := by
      rw [← hcount]
      simp [lease, hl, hrow, ClaimLease.grant, WindowClaim.grant, hcount]
    rw [hlease]
    exact .acquire ..
  · have hclaim : ((s.call op).row u).claim = (s.row u).claim ∨ ((s.call op).row u).claim = none := by
      rcases s.row_call op u with ⟨ht, he⟩ | ⟨hrow, -⟩ | ⟨-, hc⟩
      · exact he.claim_of_not_owned (hno ht)
      · exact .inl (by rw [hrow])
      · rcases hc with hc | ⟨-, hc⟩ | ⟨-, hc⟩ <;> rw [hc]
        · exact .inl rfl
        · exact .inr rfl
        · exact .inl rfl
    rcases hclaim with hclaim | hclaim
    · have hlease : (s.call op).lease u = s.lease u := by simp [lease, hl, hclaim]
      rw [hlease]
      exact .keep _
    · have hlease : (s.call op).lease u = { s.lease u with held := none } := by
        simp [lease, hl, hclaim]
      rw [hlease]
      exact .drop _

/-- In every reachable state the lease of every watch is sound. -/
theorem lease_sound {s : Store} (h : (storeMachine Lawful).Reach s) (u : String) :
    (s.lease u).Sound := by
  refine h.invariant (P := fun s => (s.lease u).Sound) ?_ ?_
  · rintro s ⟨d, hm, hl⟩
    have hfresh : s.lease u = ⟨0, none, []⟩ := by
      simp [lease, issuedFor, issued, hl, row, hm, Row.vacant]
    rw [hfresh]
    exact Lease.sound_fresh
  · intro s i hr hs _
    cases i with
    | tick now => exact hs
    | call op => exact hs.step (lease_call (fun v => keyed hr v) op u)

/-- A claim is issued once. -/
theorem owned_fresh {s : Store} (h : (storeMachine Lawful).Reach s) {op : Op} {c : WindowClaim}
    (hc : s.reply op = .claim (.owned c)) : c ∉ s.issued := by
  intro hissued
  obtain ⟨-, -, -, hwatch, -, -, -, -, htoken, -⟩ := owned_cases hc
  have hk := keyed h op.target
  have hid : c.watch.watchId = op.target := hk.row.watchId _ hwatch
  have hmem : c.grant ∈ (s.lease op.target).issued :=
    List.mem_map.mpr ⟨c, mem_issuedFor.mpr ⟨hissued, hid⟩, rfl⟩
  -- Its token is above every one that was issued.
  have hle : c.token ≤ (s.issuedFor op.target).length := (lease_sound h op.target).token_le _ hmem
  rw [htoken, hk.row.fence (by simp [hwatch])] at hle
  exact absurd hle (Nat.not_succ_le_self _)

/-! ## Claims that are over -/

/-- A created watch that is not active is not changed by any call but the cleanup that removes it. -/
theorem inactive_call {s : Store} {op : Op} (ho : Lawful s op) {u : String} (hu : u ∈ s.created)
    (h : ∀ w, (s.row u).watch = some w → w.status ≠ .active) :
    ((s.call op).row u).watch = (s.row u).watch ∨
      (((s.call op).row u).watch = none ∧ op.isCleanup = true) := by
  rcases s.row_call op u with ⟨ht, he⟩ | ⟨hrow, -⟩ | ⟨⟨due, batchSize, rfl⟩, hcl⟩
  · rcases he.watch_of_inactive h with ⟨w, rt, rfl, hnone⟩ | hwatch
    · -- The id is taken.
      have ht : w.watchId = u := ht
      rw [← ht] at hnone hu
      exact absurd hu (ho.2 hnone)
    · exact .inl hwatch
  · exact .inl (by rw [hrow])
  · rcases hcl with hcl | ⟨-, hcl⟩ | ⟨-, hcl⟩ <;> rw [hcl]
    · exact .inl rfl
    · exact .inr ⟨rfl, rfl⟩
    · exact .inl rfl

/-- A claim is over: it does not own its watch, or its watch is not active any more. -/
def Over (s : Store) (c : WindowClaim) : Prop :=
  ¬ (s.row c.watch.watchId).Owns s.now c ∨
    ∀ w, (s.row c.watch.watchId).watch = some w → w.status ≠ .active

/-- A claim that is over gets no permit and commits nothing. -/
theorem Over.refused {s : Store} {c : WindowClaim} (h : s.Over c) :
    (s.reply (.begin c)).isApplied = false ∧
      ∀ nw nr, (s.reply (.commit c nw nr)).isApplied = false := by
  refine ⟨?_, fun nw nr => ?_⟩ <;> by_contra hn
  · obtain ⟨r, -, he⟩ := effect_of_applied (by simpa using hn)
    generalize s.reply (.begin c) = reply at he
    cases he with
    | begin hwatch _ hactive _ howns =>
      rcases h with h | h
      · exact h howns
      · exact h _ hwatch hactive
  · obtain ⟨r, -, he⟩ := effect_of_applied (by simpa using hn)
    generalize s.reply (.commit c nw nr) = reply at he
    cases he with
    | reschedule hwatch _ hactive _ howns | finish hwatch _ hactive _ howns =>
      rcases h with h | h
      · exact h howns
      · exact h _ hwatch hactive

/-- An issued claim that is over stays over. -/
theorem Over.later {s s' : Store} (hr : (storeMachine Lawful).Reach s)
    (hl : (storeMachine Lawful).Later s s') {c : WindowClaim} (hc : c ∈ s.issued) (h : s.Over c) :
    c ∈ s'.issued ∧ s'.Over c := by
  refine hl.stable (P := fun s => c ∈ s.issued ∧ s.Over c) ?_ hr ⟨hc, h⟩
  rintro s i hr ⟨hc, h⟩ ha
  have hu := mem_issuedFor.mpr ⟨hc, rfl⟩
  have hg : c.grant ∈ (s.lease c.watch.watchId).issued := List.mem_map.mpr ⟨c, hu, rfl⟩
  have hs := lease_sound hr c.watch.watchId
  cases i with
  | tick now =>
    refine ⟨hc, h.imp_left fun h ho => h ?_⟩
    rw [← lease_owns_iff] at ho ⊢
    exact (hs.owns_of_step hg ha (.keep _) ho).1
  | call op =>
    refine ⟨issued_call op hc, ?_⟩
    rcases h with h | h
    · refine .inl fun ho => h ?_
      rw [← lease_owns_iff] at ho ⊢
      exact (hs.owns_of_step hg le_rfl (lease_call (fun v => keyed hr v) op _) ho).1
    · have hcreated := (keyed hr c.watch.watchId).issued (List.ne_nil_of_mem hu)
      refine .inr fun w (hw : ((s.call op).row _).watch = some w) => ?_
      rcases inactive_call ha hcreated h with hwatch | ⟨hwatch, -⟩ <;> rw [hwatch] at hw
      · exact h w hw
      · contradiction

end Store

end Dibs
