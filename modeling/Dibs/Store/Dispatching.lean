import Dibs.Service.Coherence

/-!
# Single-flight dispatch leases

A dispatcher publishes a window under a lease of its own. The lease table has one slot for each watch,
shared by its successive windows, and a dispatcher may mark or give up its lease at any time later. What
became of a dispatch claim is in the log (`Store.leaseEnd`): it lasts until its own expiry, until the
instant of its last mark that was accepted, or it was given up.

`Dispatching` ties the slot to the log: as long as a window is the one its watch is on, a claim on it that
has not run out is the one in the slot. So nobody else is granted the window before (`not_live`), and the
claims on a window that was left behind have run out for good.
-/

namespace Dibs

/-- The dispatch claim that a call issued. -/
def Entry.dispatched (e : Entry) : Option DispatchClaim :=
  match e.reply with
  | .dispatch (.claimed c) => some c
  | _ => none

/-- Until when a dispatch claim lasts after a call, when it lasted until `before`. -/
def Entry.leaseEnd (c : DispatchClaim) (e : Entry) (before : Option Time) : Option Time :=
  match e.op, e.reply with
  | _, .dispatch (.claimed c') => if c' = c then some c.leaseExpiresAt else before
  | .markDispatched c' after, .flag true => if c' = c then some after else before
  | .releaseDispatch c', .flag true => if c' = c then none else before
  | _, _ => before

/-- Whether a call is one of a dispatcher. -/
def Op.isDispatch : Op → Bool
  | .claimDispatch _ _ _ | .markDispatched _ _ | .releaseDispatch _ => true
  | _ => false

/-- The cadence number of the window that an active watch is on. -/
def Row.cadence (r : Row) : Option ℕ :=
  match r.watch, r.runtime with
  | some watch, some runtime => if watch.status = .active then some runtime.cadenceSequence else none
  | _, _ => none

namespace Store

/-- The dispatch claims issued so far, newest first. -/
def dispatched (s : Store) : List DispatchClaim := s.log.filterMap Entry.dispatched

/-- The dispatch claims issued so far for one watch, newest first. -/
def dispatchedFor (s : Store) (u : String) : List DispatchClaim :=
  s.dispatched.filter fun c => decide (c.watchId = u)

/-- Until when a dispatch claim lasts, unless it was given up or never issued. -/
def leaseEnd (s : Store) (c : DispatchClaim) : Option Time := s.log.foldr (Entry.leaseEnd c) none

/-- A dispatch claim holds: it was issued, not given up, and has not run out. -/
def Live (s : Store) (c : DispatchClaim) : Prop := ∃ t, s.leaseEnd c = some t ∧ s.now < t

end Store

/-- Served calls in which dispatchers mark and give up only what was issued to them. -/
def Dispatches (s : Store) (op : Op) : Prop :=
  Served s op ∧ ∀ c, (∃ after, op = .markDispatched c after) ∨ op = .releaseDispatch c → c ∈ s.dispatched

/-- The cadence number of a scheduled row. -/
theorem Row.Scheduled.cadence {u : String} {r : Row} {rt : WatchRuntime} {due : Time} {w : Watch}
    (h : r.Scheduled u rt due) (hw : r.watch = some w) (ha : w.status = .active) :
    r.cadence = some rt.cadenceSequence := by
  simp [Row.cadence, hw, h.runtime, ha]

/-- A row whose watch is not active has no cadence number. -/
theorem Row.cadence_of_inactive {r : Row} {w : Watch} (hw : r.watch = some w) (h : w.status ≠ .active) :
    r.cadence = none := by
  unfold Row.cadence
  rw [hw]
  split
  · rename_i heq _
    obtain rfl := Option.some.inj heq
    exact if_neg h
  · rfl

/-- What an effect that is not one of a dispatcher can do to the dispatch lease: it ends the watch and the
lease, or leaves the lease alone and the watch on its window or on the next one. -/
theorem Effect.dispatch_frame {d : Duration} {now : Time} {r r' : Row} {op : Op} {reply : Reply}
    (he : Effect d now r op reply r') (hop : op.isDispatch = false) (hthere : r.watch ≠ none)
    (hmarker : ∀ w, r.watch = some w → w.status = .active → r.marker ≠ none)
    (hnext : ∀ c nw nr, op = .commit c nw nr → r.Owns now c → nw.status = .active →
      ∀ rt, r.runtime = some rt → nr.cadenceSequence = rt.cadenceSequence + 1) :
    r'.dispatchFence = r.dispatchFence ∧
      ((r'.cadence = none ∧ r'.dispatchLease = none) ∨
        (r'.dispatchLease = r.dispatchLease ∧
          (r'.cadence = r.cadence ∨ ∃ n, r.cadence = some n ∧ r'.cadence = some (n + 1)))) := by
  cases he with
  | create hnone => exact absurd hnone hthere
  | claimDispatch | markDispatched | releaseDispatch => contradiction
  | claim | release => exact ⟨rfl, .inr ⟨rfl, .inl rfl⟩⟩
  | begin hwatch hruntime | pend hwatch hruntime =>
    exact ⟨rfl, .inr ⟨rfl, .inl (by simp [Row.cadence, hwatch, hruntime])⟩⟩
  | @reschedule _ _ _ _ runtime hwatch hruntime hactive _ howns hnew =>
    refine ⟨rfl, .inr ⟨rfl, .inr ⟨runtime.cadenceSequence, ?_, ?_⟩⟩⟩
    · simp only [Row.cadence, hwatch, hruntime, if_pos hactive]
    · simp only [Row.cadence, Row.reschedule, if_pos hnew]
      rw [hnext _ _ _ rfl howns hnew _ hruntime]
  | finish _ _ _ _ _ hnew => exact ⟨rfl, .inl ⟨Row.cadence_of_inactive rfl hnew, rfl⟩⟩
  | cancel | expire => exact ⟨rfl, .inl ⟨Row.cadence_of_inactive rfl (by simp), rfl⟩⟩
  | synthesize hwatch hactive hnone => exact absurd hnone (hmarker _ hwatch hactive)

namespace Store

@[simp]
theorem leaseEnd_call (s : Store) (op : Op) (c : DispatchClaim) :
    (s.call op).leaseEnd c = Entry.leaseEnd c ⟨s.now, op, s.reply op⟩ (s.leaseEnd c) := rfl

theorem mem_dispatchedFor {s : Store} {u : String} {c : DispatchClaim} :
    c ∈ s.dispatchedFor u ↔ c ∈ s.dispatched ∧ c.watchId = u := by
  simp [dispatchedFor]

/-- A dispatch claim is issued on the marker of an active watch, for its window and under the next
generation. -/
theorem claimed_cases {s : Store} {op : Op} {c : DispatchClaim} (h : s.reply op = .dispatch (.claimed c)) :
    ∃ k lease watch current, op = .claimDispatch k c.ownerId lease ∧ k.watchId = c.watchId ∧
      k.windowId = c.windowId ∧ (s.row c.watchId).watch = some watch ∧ watch.status = .active ∧
      (s.row c.watchId).marker = some current ∧ current.windowId = c.windowId ∧
      c.generation = (s.row c.watchId).dispatchFence.getD 0 + 1 ∧
      (∀ held, (s.row c.watchId).dispatchLease = some held → held.windowId = c.windowId →
        held.expiresAt ≤ s.now) ∧
      (s.call op).row c.watchId = { s.row c.watchId with
        dispatchFence := some c.generation
        dispatchLease := some ⟨c.windowId, c.ownerId, c.generation, c.leaseExpiresAt⟩ } := by
  obtain ⟨r, hr, he⟩ := effect_of_reply h rfl
  cases he with
  | @claimDispatch k current o lease watch hwatch hmarker hactive hwindow hfree =>
    exact ⟨k, lease, watch, current, rfl, rfl, rfl, hwatch, hactive, hmarker, hwindow, rfl, hfree, hr⟩

/-- The dispatch claims after a call: those before it, and its own if it issued one. -/
theorem dispatched_call (s : Store) (op : Op) :
    (∃ c, s.reply op = .dispatch (.claimed c) ∧ (s.call op).dispatched = c :: s.dispatched) ∨
    ((s.call op).dispatched = s.dispatched ∧ ∀ c, s.reply op ≠ .dispatch (.claimed c)) := by
  simp only [dispatched, call_log, List.filterMap_cons]
  split
  · rename_i hnone
    refine .inr ⟨rfl, fun c hc => ?_⟩
    simp [Entry.dispatched, hc] at hnone
  · rename_i c hc
    unfold Entry.dispatched at hc
    split at hc
    · rename_i c' hreply
      obtain rfl := Option.some.inj hc
      exact .inl ⟨c', hreply, rfl⟩
    · contradiction

/-- A call that issues a dispatch claim adds it. -/
theorem dispatched_of_claimed {s : Store} {op : Op} {c : DispatchClaim}
    (h : s.reply op = .dispatch (.claimed c)) : (s.call op).dispatched = c :: s.dispatched := by
  rcases dispatched_call s op with ⟨c', hc', hl⟩ | ⟨-, hno⟩
  · obtain rfl : c = c' := by simpa [h] using hc'
    exact hl
  · exact absurd h (hno c)

/-- A call that is not an accepted one of a dispatcher of the watch leaves its claims as they are. -/
theorem leaseEnd_of_other {s : Store} {op : Op} {c : DispatchClaim}
    (h : op.isDispatch = true → op.target = c.watchId → (s.reply op).isApplied = false) :
    (s.call op).leaseEnd c = s.leaseEnd c := by
  rw [leaseEnd_call]
  unfold Entry.leaseEnd
  split
  · rename_i hreply
    have hreply : s.reply op = _ := hreply
    split_ifs with hc
    · subst hc
      obtain ⟨k, lease, -, -, rfl, hk, -⟩ := claimed_cases hreply
      exact absurd (h rfl hk) (by rw [hreply]; simp [Reply.isApplied])
    · rfl
  · rename_i hop hreply
    obtain rfl : op = _ := hop
    have hreply : s.reply _ = _ := hreply
    split_ifs with hc
    · exact absurd (h rfl (congrArg DispatchClaim.watchId hc)) (by rw [hreply]; simp [Reply.isApplied])
    · rfl
  · rename_i hop hreply
    obtain rfl : op = _ := hop
    have hreply : s.reply _ = _ := hreply
    split_ifs with hc
    · exact absurd (h rfl (congrArg DispatchClaim.watchId hc)) (by rw [hreply]; simp [Reply.isApplied])
    · rfl
  · rfl

/-- The dispatch leases of a watch agree with the log. -/
structure Dispatching (s : Store) (u : String) : Prop where
  /-- Only a created watch is dispatched. -/
  created : s.dispatchedFor u ≠ [] → u ∈ s.created
  /-- The generation of a watch counts the claims. -/
  fence : (s.row u).watch ≠ none → (s.row u).dispatchFence.getD 0 = (s.dispatchedFor u).length
  /-- No generation exceeds the count. -/
  generation_le : ∀ c ∈ s.dispatchedFor u, c.generation ≤ (s.dispatchedFor u).length
  /-- Every generation is greater than those issued before it. -/
  decreasing : (s.dispatchedFor u).Pairwise fun a b => b.generation < a.generation
  /-- The lease in force is that of the newest claim. -/
  held : ∀ l, (s.row u).dispatchLease = some l → ∃ c rest, s.dispatchedFor u = c :: rest ∧
    l.windowId = c.windowId ∧ l.generation = c.generation ∧ l.ownerId = c.ownerId
  /-- Claims are on windows of the watch. -/
  named : ∀ c ∈ s.dispatchedFor u, ∃ k, c.windowId = windowIdFor u k ∧
    ∀ n, (s.row u).cadence = some n → k ≤ n
  /-- A claim on the window that the watch is on, and that has not run out, is the lease in force. -/
  current : ∀ n, (s.row u).cadence = some n → ∀ c ∈ s.dispatchedFor u, c.windowId = windowIdFor u n →
    ∀ t, s.leaseEnd c = some t → s.now < t →
      (s.row u).dispatchLease = some ⟨c.windowId, c.ownerId, c.generation, t⟩
  /-- A claim on a window that was claimed again has run out. -/
  superseded : ∀ c ∈ s.dispatchedFor u, ∀ c' ∈ s.dispatchedFor u, c.generation < c'.generation →
    c.windowId = c'.windowId → ∀ t, s.leaseEnd c = some t → t ≤ s.now

/-- A watch that was never dispatched. -/
theorem dispatching_of_nil {s : Store} {u : String} (hnil : s.dispatchedFor u = [])
    (hfence : (s.row u).dispatchFence.getD 0 = 0) (hlease : (s.row u).dispatchLease = none) :
    s.Dispatching u := by
  refine ⟨fun h => absurd hnil h, fun _ => ?_, ?_, ?_, ?_, ?_, ?_, ?_⟩
  · rw [hfence, hnil, List.length_nil]
  · simp [hnil]
  · simp [hnil]
  · simp [hlease]
  · simp [hnil]
  · simp [hnil]
  · simp [hnil]

/-- What leaves the claims of a watch and their ends alone, and its row as effects that are not a
dispatcher's do, keeps the agreement. -/
theorem Dispatching.frame {s s' : Store} {u : String} (h : s.Dispatching u)
    (hlist : s'.dispatchedFor u = s.dispatchedFor u)
    (hend : ∀ c ∈ s.dispatchedFor u, s'.leaseEnd c = s.leaseEnd c) (hnow : s.now ≤ s'.now)
    (hcreated : u ∈ s.created → u ∈ s'.created)
    (hfence : (s'.row u).watch ≠ none → (s'.row u).dispatchFence.getD 0 = (s.dispatchedFor u).length)
    (hrow : ((s'.row u).cadence = none ∧ (s'.row u).dispatchLease = none) ∨
      ((s'.row u).dispatchLease = (s.row u).dispatchLease ∧ ((s'.row u).cadence = (s.row u).cadence ∨
        ∃ n, (s.row u).cadence = some n ∧ (s'.row u).cadence = some (n + 1)))) : s'.Dispatching u := by
  refine ⟨fun hne => hcreated (h.created (hlist ▸ hne)), fun hw => ?_, ?_, ?_, fun l hl => ?_,
    fun c hc => ?_, fun n hn c hc hwin t ht hlt => ?_, ?_⟩
  · rw [hlist]
    exact hfence hw
  · rw [hlist]
    exact h.generation_le
  · rw [hlist]
    exact h.decreasing
  · rw [hlist]
    rcases hrow with ⟨-, hnone⟩ | ⟨hsame, -⟩
    · exact absurd (hl.symm.trans hnone) (by simp)
    · exact h.held l (hsame ▸ hl)
  · rw [hlist] at hc
    obtain ⟨k, hname, hle⟩ := h.named c hc
    refine ⟨k, hname, fun n hn => ?_⟩
    rcases hrow with ⟨hnone, -⟩ | ⟨-, hsame | ⟨m, hm, hnext⟩⟩
    · exact absurd (hn.symm.trans hnone) (by simp)
    · exact hle n (hsame ▸ hn)
    · have hkm := hle m hm
      have hmn : m + 1 = n := Option.some.inj (hnext.symm.trans hn)
      omega
  · rw [hlist] at hc
    rw [hend c hc] at ht
    have hlt : s.now < t := lt_of_le_of_lt hnow hlt
    rcases hrow with ⟨hnone, -⟩ | ⟨hlease, hsame | ⟨m, hm, hnext⟩⟩
    · exact absurd (hn.symm.trans hnone) (by simp)
    · rw [hlease]
      exact h.current n (hsame ▸ hn) c hc hwin t ht hlt
    · -- The window is new: no claim was issued on it.
      obtain ⟨k, hname, hle⟩ := h.named c hc
      have hkm := hle m hm
      have hmn : m + 1 = n := Option.some.inj (hnext.symm.trans hn)
      have hkn := (windowIdFor_inj (hname.symm.trans hwin)).2
      omega
  · rw [hlist]
    intro c hc c' hc' hlt hwin t ht
    rw [hend c hc] at ht
    exact (h.superseded c hc c' hc' hlt hwin t ht).trans hnow

/-- The newest claim of a watch is the one with the generation in force. -/
theorem Dispatching.eq_of_held {s : Store} {u : String} (h : s.Dispatching u) {l : DispatchLease}
    (hl : (s.row u).dispatchLease = some l) {c : DispatchClaim} (hc : c ∈ s.dispatchedFor u)
    (hgeneration : l.generation = c.generation) :
    l.windowId = c.windowId ∧ l.ownerId = c.ownerId ∧
      ∀ c' ∈ s.dispatchedFor u, c'.generation ≤ c.generation := by
  obtain ⟨c₀, rest, hlist, hwindow, hgen, howner⟩ := h.held l hl
  have hnewest : c₀ ∈ s.dispatchedFor u := hlist ▸ List.mem_cons_self
  obtain rfl : c₀ = c :=
    Lease.eq_of_decreasing DispatchClaim.generation h.decreasing hnewest hc (hgen.symm.trans hgeneration)
  refine ⟨hwindow, howner, fun c' hc' => ?_⟩
  have hdecreasing := h.decreasing
  rw [hlist] at hdecreasing hc'
  rcases List.mem_cons.mp hc' with rfl | hrest
  · exact le_rfl
  · exact ((List.pairwise_cons.mp hdecreasing).1 c' hrest).le

/-- A new claim keeps the agreement. -/
theorem Dispatching.claimed {s : Store} {u : String} (h : s.Dispatching u) {op : Op} {c : DispatchClaim}
    (hreply : s.reply op = .dispatch (.claimed c)) (hu : c.watchId = u) (hcreated : u ∈ s.created)
    {n : ℕ} (hcadence : (s.row u).cadence = some n) (hwindow : c.windowId = windowIdFor u n) :
    (s.call op).Dispatching u := by
  subst hu
  obtain ⟨k, lease, watch, marker, rfl, -, -, hwatch, -, -, -, hgeneration, hfree, hrow⟩ :=
    claimed_cases hreply
  have hfence := h.fence (by simp [hwatch])
  have hlist : (s.call (.claimDispatch k c.ownerId lease)).dispatchedFor c.watchId =
      c :: s.dispatchedFor c.watchId := by
    rw [dispatchedFor, dispatched_of_claimed hreply]
    exact List.filter_cons_of_pos (by simp)
  have hend : ∀ c', (s.call (.claimDispatch k c.ownerId lease)).leaseEnd c' =
      if c = c' then some c'.leaseExpiresAt else s.leaseEnd c' := by
    intro c'
    rw [leaseEnd_call, hreply]
    rfl
  have hcad : ((s.call (.claimDispatch k c.ownerId lease)).row c.watchId).cadence = some n := by
    rw [hrow]
    exact hcadence
  -- Whatever was claimed on this window before has run out.
  have hout : ∀ c' ∈ s.dispatchedFor c.watchId, c'.windowId = c.windowId →
      ∀ t, s.leaseEnd c' = some t → t ≤ s.now := by
    intro c' hc' hwin t ht
    by_contra hlive
    have hheld := h.current n hcadence c' hc' (hwin.trans hwindow) t ht (not_le.mp hlive)
    exact hlive (hfree _ hheld hwin)
  refine ⟨fun _ => created_call _ hcreated, fun _ => ?_, fun c' hc' => ?_, ?_, fun l hl => ?_,
    fun c' hc' => ?_, fun m hm c' hc' hwin t ht hlt => ?_, fun c₁ hc₁ c₂ hc₂ hlt hwin t ht => ?_⟩
  · rw [hrow, hlist, List.length_cons]
    show c.generation = _
    rw [hgeneration, hfence]
  · rw [hlist] at hc' ⊢
    rw [List.length_cons]
    rcases List.mem_cons.mp hc' with rfl | hc'
    · rw [hgeneration, hfence]
    · exact Nat.le_succ_of_le (h.generation_le c' hc')
  · rw [hlist]
    refine List.pairwise_cons.mpr ⟨fun c' hc' => ?_, h.decreasing⟩
    rw [hgeneration, hfence]
    exact Nat.lt_succ_of_le (h.generation_le c' hc')
  · rw [hrow] at hl
    obtain rfl := Option.some.inj hl
    exact ⟨c, _, hlist, rfl, rfl, rfl⟩
  · rw [hlist] at hc'
    rcases List.mem_cons.mp hc' with rfl | hc'
    · refine ⟨n, hwindow, fun m hm => ?_⟩
      rw [hcad] at hm
      exact (Option.some.inj hm).le
    · obtain ⟨k', hname, hle⟩ := h.named c' hc'
      refine ⟨k', hname, fun m hm => ?_⟩
      rw [hcad] at hm
      exact Option.some.inj hm ▸ hle n hcadence
  · rw [hlist] at hc'
    rw [hcad] at hm
    obtain rfl := Option.some.inj hm
    rw [hend] at ht
    rw [hrow]
    split_ifs at ht with heq
    · subst heq
      obtain rfl := Option.some.inj ht
      rfl
    · have hold : c' ∈ s.dispatchedFor c.watchId :=
        (List.mem_cons.mp hc').resolve_left fun he => heq he.symm
      exact absurd (hout c' hold (hwin.trans hwindow.symm) t ht) (not_le.mpr hlt)
  · rw [hlist] at hc₁ hc₂
    have hne : c ≠ c₁ := by
      rintro rfl
      rcases List.mem_cons.mp hc₂ with rfl | hc₂
      · exact absurd hlt (lt_irrefl _)
      · have hle := h.generation_le c₂ hc₂
        omega
    have hc₁ : c₁ ∈ s.dispatchedFor c.watchId := (List.mem_cons.mp hc₁).resolve_left hne.symm
    rw [hend, if_neg hne] at ht
    rcases List.mem_cons.mp hc₂ with rfl | hc₂
    · exact hout c₁ hc₁ hwin t ht
    · exact h.superseded c₁ hc₁ c₂ hc₂ hlt hwin t ht

/-- The holder of the lease in force moves its end or gives it up, and keeps the agreement. -/
theorem Dispatching.moved {s s' : Store} {u : String} (h : s.Dispatching u) {c : DispatchClaim}
    (hc : c ∈ s.dispatchedFor u) {l : DispatchLease} (hl : (s.row u).dispatchLease = some l)
    (hgeneration : l.generation = c.generation) {e : Option Time}
    (hlist : s'.dispatchedFor u = s.dispatchedFor u)
    (hend : ∀ c', s'.leaseEnd c' = if c = c' then e else s.leaseEnd c') (hnow : s'.now = s.now)
    (hcreated : u ∈ s.created → u ∈ s'.created)
    (hrow : s'.row u = { s.row u with
      dispatchLease := e.map fun t => { l with expiresAt := t } }) : s'.Dispatching u := by
  obtain ⟨hwindow, howner, hnewest⟩ := h.eq_of_held hl hc hgeneration
  have hcad : (s'.row u).cadence = (s.row u).cadence := by
    rw [hrow]
    rfl
  refine ⟨fun hne => hcreated (h.created (hlist ▸ hne)), fun hw => ?_, ?_, ?_, fun l' hl' => ?_,
    fun c' hc' => ?_, fun n hn c' hc' hwin t ht hlt => ?_, fun c₁ hc₁ c₂ hc₂ hlt hwin t ht => ?_⟩
  · rw [hrow] at hw ⊢
    rw [hlist]
    exact h.fence hw
  · rw [hlist]
    exact h.generation_le
  · rw [hlist]
    exact h.decreasing
  · rw [hrow] at hl'
    obtain ⟨t, -, rfl⟩ := Option.map_eq_some_iff.mp hl'
    rw [hlist]
    exact h.held l hl
  · rw [hlist] at hc'
    rw [hcad]
    exact h.named c' hc'
  · rw [hlist] at hc'
    rw [hcad] at hn
    rw [hnow] at hlt
    rw [hend] at ht
    rw [hrow]
    split_ifs at ht with heq
    · subst heq
      rw [ht]
      show some (⟨l.windowId, l.ownerId, l.generation, t⟩ : DispatchLease) = _
      rw [hwindow, howner, hgeneration]
    · -- Only the holder's claim is in the slot.
      have hheld := h.current n hn c' hc' hwin t ht hlt
      obtain rfl := Option.some.inj (hl.symm.trans hheld)
      exact absurd (Lease.eq_of_decreasing DispatchClaim.generation h.decreasing hc hc' hgeneration.symm) heq
  · rw [hlist] at hc₁ hc₂
    rw [hnow]
    rw [hend] at ht
    split_ifs at ht with heq
    · subst heq
      exact absurd (hnewest c₂ hc₂) (not_le.mpr hlt)
    · exact h.superseded c₁ hc₁ c₂ hc₂ hlt hwin t ht

/-- A call that issues no dispatch claim for a watch leaves the list of its claims alone. -/
theorem dispatchedFor_call {s : Store} {op : Op} {u : String}
    (h : ∀ c, s.reply op = .dispatch (.claimed c) → c.watchId ≠ u) :
    (s.call op).dispatchedFor u = s.dispatchedFor u := by
  rcases dispatched_call s op with ⟨c, hreply, hl⟩ | ⟨hl, -⟩
  · simp [dispatchedFor, hl, h c hreply]
  · rw [dispatchedFor, hl]
    rfl

/-- Under the calls of the service and of dispatchers, a call keeps the agreement. -/
theorem Dispatching.call {s : Store} (hr : (storeMachine Served).Reach s) {u : String}
    (h : s.Dispatching u) {op : Op} (ho : Dispatches s op) : (s.call op).Dispatching u := by
  have hlawful := lawful_of_served hr
  have hk := keyed hlawful u
  have hco := coherent hr u
  rcases s.row_call op u with ⟨ht, he⟩ | ⟨hrow, hno⟩ | ⟨⟨due, batchSize, rfl⟩, hclean⟩
  · cases hop : op.isDispatch with
    | false =>
      have hquiet : ∀ c, s.reply op ≠ .dispatch (.claimed c) := by
        intro c hc
        obtain ⟨k, lease, -, -, rfl, -⟩ := claimed_cases hc
        contradiction
      have hlist : (s.call op).dispatchedFor u = s.dispatchedFor u :=
        dispatchedFor_call fun c hc => absurd hc (hquiet c)
      by_cases hthere : (s.row u).watch = none
      · -- A creation: the id is new.
        obtain ⟨w, rt, rfl, -⟩ := he.create_of_watch_none hk.row hthere
        have ht : w.watchId = u := ht
        subst ht
        have hnil : s.dispatchedFor w.watchId = [] := by
          by_contra hne
          exact ho.1.1.2 hthere (h.created hne)
        have hvacant := hk.row.vacant hthere
        generalize s.reply (.create w rt) = reply at he
        cases hrow' : (s.call (.create w rt)).row w.watchId
        rw [hrow'] at he
        cases he with
        | create =>
          refine dispatching_of_nil (hlist.trans hnil) ?_ ?_
          · rw [hrow', hvacant]
            rfl
          · rw [hrow', hvacant]
            rfl
      · have hmarker : ∀ w, (s.row u).watch = some w → w.status = .active → (s.row u).marker ≠ none := by
          intro w hw hactive
          obtain ⟨rt, due, hs⟩ := hco.active w hw hactive
          simp [hs.marker]
        have hnext : ∀ c nw nr, op = .commit c nw nr → (s.row u).Owns s.now c → nw.status = .active →
            ∀ rt, (s.row u).runtime = some rt → nr.cadenceSequence = rt.cadenceSequence + 1 := by
          rintro c nw nr rfl howns hnew rt hrt
          obtain ⟨svc, plan, hbuilt, rfl, rfl⟩ := ho.1.2
          obtain rfl : c.watch.watchId = u := ht
          have hcurrent := (owned_current hlawful ho.1.1.1.1 howns).2
          have hplan : plan.Succeeds c := hbuilt.cases.resolve_right fun hf => hf.status hnew
          obtain ⟨due, outages, -, hruntime⟩ := hplan.scheduled
          have hbase : rt.base = c.runtime.base := by simpa [hrt] using hcurrent
          rw [hruntime, WatchRuntime.cadenceSequence_eq hbase]
          rfl
        obtain ⟨hfence, hframe⟩ := he.dispatch_frame hop hthere hmarker hnext
        refine h.frame hlist (fun c _ => leaseEnd_of_other fun hd => ?_) le_rfl (created_call op)
          (fun _ => ?_) hframe
        · rw [hop] at hd
          contradiction
        · rw [hfence]
          exact h.fence hthere
    | true =>
      have hcreated := hk.created
      cases op with
      | claimDispatch k o lease =>
        have ht : k.watchId = u := ht
        generalize hreply : s.reply (.claimDispatch k o lease) = reply at he
        generalize (s.call (.claimDispatch k o lease)).row u = r' at he
        cases he with
        | @claimDispatch _ current _ _ watch hwatch hmarker hactive hwindow =>
          obtain ⟨rt, due, hs⟩ := hco.active _ hwatch hactive
          obtain rfl := Option.some.inj (hmarker.symm.trans hs.marker)
          exact h.claimed hreply ht (hcreated (by simp [hwatch])) (hs.cadence hwatch hactive) hwindow.symm
      | markDispatched c after =>
        have ht : c.watchId = u := ht
        have hc := mem_dispatchedFor.mpr ⟨ho.2 c (.inl ⟨after, rfl⟩), ht⟩
        generalize hreply : s.reply (.markDispatched c after) = reply at he
        generalize hrow : (s.call (.markDispatched c after)).row u = r' at he
        cases he with
        | markDispatched hheld hgeneration =>
          refine h.moved (e := some after) hc hheld hgeneration ?_ (fun c' => ?_) rfl (created_call _) hrow
          · exact dispatchedFor_call fun c' hc' => by simp [hreply] at hc'
          · rw [leaseEnd_call, hreply]
            rfl
      | releaseDispatch c =>
        have ht : c.watchId = u := ht
        have hc := mem_dispatchedFor.mpr ⟨ho.2 c (.inr rfl), ht⟩
        generalize hreply : s.reply (.releaseDispatch c) = reply at he
        generalize hrow : (s.call (.releaseDispatch c)).row u = r' at he
        cases he with
        | releaseDispatch hheld hgeneration =>
          refine h.moved (e := none) hc hheld hgeneration ?_ (fun c' => ?_) rfl (created_call _) hrow
          · exact dispatchedFor_call fun c' hc' => by simp [hreply] at hc'
          · rw [leaseEnd_call, hreply]
            rfl
      | _ => contradiction
  · refine h.frame (dispatchedFor_call fun c hc hu => ?_) (fun c hc => leaseEnd_of_other fun _ ht => ?_)
      le_rfl (created_call op) (fun hw => ?_) (.inr ⟨by rw [hrow], .inl (by rw [hrow])⟩)
    · obtain ⟨k, lease, -, -, hop, hid, -⟩ := claimed_cases hc
      have hrefused := (hno (by rw [hop, Op.target, hid, hu])).1
      rw [hc] at hrefused
      contradiction
    · exact (hno (ht.trans (mem_dispatchedFor.mp hc).2)).1
    · rw [hrow] at hw ⊢
      exact h.fence hw
  · refine h.frame (dispatchedFor_call fun c hc => ?_) (fun c _ => leaseEnd_of_other fun hd => ?_) le_rfl
      (created_call _) ?_ ?_
    · obtain ⟨k, lease, -, -, hop, -⟩ := claimed_cases hc
      contradiction
    · contradiction
    · rcases hclean with hclean | ⟨-, hclean⟩ | ⟨-, hclean⟩ <;> rw [hclean]
      · exact h.fence
      · exact fun hw => absurd rfl hw
      · exact h.fence
    · rcases hclean with hclean | ⟨-, hclean⟩ | ⟨-, hclean⟩ <;> rw [hclean]
      · exact .inr ⟨rfl, .inl rfl⟩
      · exact .inl ⟨rfl, rfl⟩
      · exact .inr ⟨rfl, .inl rfl⟩

/-- What dispatchers and the service reach, the service reaches with the calls of a recovery pass. -/
theorem served_of_dispatches {s : Store} (h : (storeMachine Dispatches).Reach s) :
    (storeMachine Served).Reach s :=
  reach_mono (fun _ _ _ ho => ho.1) h

/-- In every state that the service and dispatchers reach, the dispatch leases agree with the log. -/
theorem dispatching {s : Store} (h : (storeMachine Dispatches).Reach s) (u : String) : s.Dispatching u := by
  refine h.invariant (P := fun s => s.Dispatching u) ?_ ?_
  · rintro s ⟨d, hm, hl⟩
    have hrow : s.row u = Row.vacant := by rw [Store.row, hm, Memory.row_empty]
    refine dispatching_of_nil (by simp [dispatchedFor, dispatched, hl]) ?_ ?_
    · rw [hrow]
      rfl
    · rw [hrow]
      rfl
  · intro s label hr hd ha
    cases label with
    | tick now =>
      exact hd.frame rfl (fun _ _ => rfl) ha id hd.fence (.inr ⟨rfl, .inl rfl⟩)
    | call op => exact hd.call (served_of_dispatches hr) ha

/-- A dispatch claim has run out: it was given up, or its own expiry or the instant of a mark that was
accepted has passed. -/
def RunOut (s : Store) (c : DispatchClaim) : Prop :=
  (∃ e ∈ s.log, e.op = .releaseDispatch c ∧ e.reply = .flag true) ∨
  ∃ t ≤ s.now, s.leaseEnd c = some t ∧
    (t = c.leaseExpiresAt ∨ ∃ e ∈ s.log, e.op = .markDispatched c t ∧ e.reply = .flag true)

/-- Where the end of a dispatch claim comes from. -/
theorem leaseEnd_cases (log : List Entry) (c : DispatchClaim) :
    (log.foldr (Entry.leaseEnd c) none = none → c ∈ log.filterMap Entry.dispatched →
      ∃ e ∈ log, e.op = .releaseDispatch c ∧ e.reply = .flag true) ∧
    ∀ t, log.foldr (Entry.leaseEnd c) none = some t → t = c.leaseExpiresAt ∨
      ∃ e ∈ log, e.op = .markDispatched c t ∧ e.reply = .flag true := by
  induction log with
  | nil => exact ⟨fun _ h => absurd h (by simp), fun _ h => absurd h (by simp)⟩
  | cons e log ih =>
    obtain ⟨hnone, hsome⟩ := ih
    have holder : ∀ {P : Entry → Prop}, (∃ e ∈ log, P e) → ∃ e' ∈ e :: log, P e' :=
      fun ⟨e', he', hP⟩ => ⟨e', List.mem_cons_of_mem _ he', hP⟩
    rw [List.foldr_cons, List.filterMap_cons]
    unfold Entry.leaseEnd Entry.dispatched
    obtain ⟨instant, op, reply⟩ := e
    split
    · rename_i c' hreply
      subst hreply
      split_ifs with hc
      · exact ⟨fun h => absurd h (by simp), fun t ht => .inl (Option.some.inj ht).symm⟩
      · refine ⟨fun h hmem => holder (hnone h ?_), fun t ht => (hsome t ht).imp_right holder⟩
        exact (List.mem_cons.mp hmem).resolve_left fun he => hc he.symm
    · rename_i c' after hop hreply
      subst hop hreply
      split_ifs with hc
      · subst hc
        refine ⟨fun h => absurd h (by simp), fun t ht => .inr ?_⟩
        obtain rfl := Option.some.inj ht
        exact ⟨_, List.mem_cons_self, rfl, rfl⟩
      · exact ⟨fun h hmem => holder (hnone h hmem), fun t ht => (hsome t ht).imp_right holder⟩
    · rename_i c' hop hreply
      subst hop hreply
      split_ifs with hc
      · subst hc
        exact ⟨fun _ _ => ⟨_, List.mem_cons_self, rfl, rfl⟩, fun t ht => absurd ht (by simp)⟩
      · exact ⟨fun h hmem => holder (hnone h hmem), fun t ht => (hsome t ht).imp_right holder⟩
    · rename_i hclaimed _ _
      refine ⟨fun h hmem => holder (hnone h ?_), fun t ht => (hsome t ht).imp_right holder⟩
      revert hmem
      split
      · rename_i heq
        split at heq
        · rename_i c' hreply
          exact absurd hreply (hclaimed c')
        · exact id
      · rename_i c' heq
        split at heq
        · rename_i c'' hreply
          exact absurd hreply (hclaimed c'')
        · contradiction

/-- An issued dispatch claim that does not hold has run out. -/
theorem runOut_of_not_live {s : Store} {c : DispatchClaim} (hc : c ∈ s.dispatched) (h : ¬ s.Live c) :
    s.RunOut c := by
  obtain ⟨hnone, hsome⟩ := leaseEnd_cases s.log c
  cases hend : s.leaseEnd c with
  | none => exact .inl (hnone hend hc)
  | some t =>
    refine .inr ⟨t, ?_, hend, hsome t hend⟩
    by_contra hlt
    exact h ⟨t, hend, not_le.mp hlt⟩

/-- Dispatch claims on one window are of one watch. -/
theorem watchId_of_window {s : Store} (h : (storeMachine Dispatches).Reach s) {c c' : DispatchClaim}
    (hc : c ∈ s.dispatched) (hc' : c' ∈ s.dispatched) (hwindow : c.windowId = c'.windowId) :
    c.watchId = c'.watchId := by
  obtain ⟨k, hk, -⟩ := (dispatching h c.watchId).named c (mem_dispatchedFor.mpr ⟨hc, rfl⟩)
  obtain ⟨k', hk', -⟩ := (dispatching h c'.watchId).named c' (mem_dispatchedFor.mpr ⟨hc', rfl⟩)
  exact (windowIdFor_inj (hk.symm.trans (hwindow.trans hk'))).1

/-- Two dispatch claims of one watch with one generation are the same. -/
theorem dispatched_eq {s : Store} (h : (storeMachine Dispatches).Reach s) {c c' : DispatchClaim}
    (hc : c ∈ s.dispatched) (hc' : c' ∈ s.dispatched) (hu : c.watchId = c'.watchId)
    (hgeneration : c.generation = c'.generation) : c = c' :=
  Lease.eq_of_decreasing DispatchClaim.generation (dispatching h c'.watchId).decreasing
    (mem_dispatchedFor.mpr ⟨hc, hu⟩) (mem_dispatchedFor.mpr ⟨hc', rfl⟩) hgeneration

/-- At most one dispatch claim on a window holds. -/
theorem live_unique {s : Store} (h : (storeMachine Dispatches).Reach s) {c c' : DispatchClaim}
    (hc : c ∈ s.dispatched) (hc' : c' ∈ s.dispatched) (hwindow : c.windowId = c'.windowId)
    (hlive : s.Live c) (hlive' : s.Live c') : c = c' := by
  have hu := watchId_of_window h hc hc' hwindow
  have hd := dispatching h c'.watchId
  have hm := mem_dispatchedFor.mpr ⟨hc, hu⟩
  have hm' := mem_dispatchedFor.mpr ⟨hc', rfl⟩
  obtain ⟨t, hend, hlt⟩ := hlive
  obtain ⟨t', hend', hlt'⟩ := hlive'
  refine dispatched_eq h hc hc' hu (le_antisymm ?_ ?_)
  · by_contra hgt
    exact absurd (hd.superseded c' hm' c hm (not_le.mp hgt) hwindow.symm t' hend') (not_le.mpr hlt')
  · by_contra hgt
    exact absurd (hd.superseded c hm c' hm' (not_le.mp hgt) hwindow t hend) (not_le.mpr hlt)

/-- A holder whose generation was superseded can neither mark nor give up. -/
theorem superseded_refused {s : Store} (h : (storeMachine Dispatches).Reach s) {c c' : DispatchClaim}
    (hc : c ∈ s.dispatched) (hc' : c' ∈ s.dispatched) (hu : c.watchId = c'.watchId)
    (hgeneration : c.generation < c'.generation) :
    (∀ after, s.mem.markDispatched c after = (false, s.mem)) ∧
      s.mem.releaseDispatch c = (false, s.mem) := by
  have hd := dispatching h c.watchId
  have hno : ∀ held, s.mem.dispatchLeases.get? c.watchId = some held →
      Memory.ownsDispatch c held = false := by
    intro held hheld
    by_contra howns
    have howns : held.generation = c.generation ∧ held.ownerId = c.ownerId := by
      simpa [Memory.ownsDispatch] using howns
    have hnewest := (hd.eq_of_held hheld (mem_dispatchedFor.mpr ⟨hc, rfl⟩) howns.1).2.2
    exact absurd (hnewest c' (mem_dispatchedFor.mpr ⟨hc', hu.symm⟩)) (not_le.mpr hgeneration)
  refine ⟨fun after => ?_, ?_⟩
  · unfold Memory.markDispatched
    cases hheld : s.mem.dispatchLeases.get? c.watchId with
    | none => rfl
    | some held => simp [Option.filter, hno held hheld]
  · unfold Memory.releaseDispatch
    cases hheld : s.mem.dispatchLeases.get? c.watchId with
    | none => rfl
    | some held => simp [hno held hheld]

/-- A window is dispatched again only when every earlier claim on it has run out, and never after it was
committed. -/
theorem claimed_again {s : Store} (h : (storeMachine Dispatches).Reach s) {op : Op} {c' : DispatchClaim}
    (hreply : s.reply op = .dispatch (.claimed c')) :
    (∀ c ∈ s.dispatched, c.windowId = c'.windowId → s.RunOut c) ∧
      c'.windowId ∉ s.committed.map WindowClaim.windowId ∧ c' ∉ s.dispatched := by
  have hserved := served_of_dispatches h
  have hlawful := lawful_of_served hserved
  obtain ⟨k, lease, watch, marker, -, -, -, hwatch, hactive, hmarker, hwindow, hgeneration, hfree, -⟩ :=
    claimed_cases hreply
  obtain ⟨rt, due, hs⟩ := (coherent hserved c'.watchId).active _ hwatch hactive
  obtain rfl := Option.some.inj (hmarker.symm.trans hs.marker)
  have hd := dispatching h c'.watchId
  have hcadence := hs.cadence hwatch hactive
  refine ⟨fun c hc hwin => runOut_of_not_live hc ?_, ?_, fun hc => ?_⟩
  · rintro ⟨t, hend, hlt⟩
    obtain ⟨n, hname, -⟩ := (dispatching h c.watchId).named c (mem_dispatchedFor.mpr ⟨hc, rfl⟩)
    have hu : c.watchId = c'.watchId :=
      (windowIdFor_inj (hname.symm.trans (hwin.trans hwindow.symm))).1
    have hheld := hd.current _ hcadence c (mem_dispatchedFor.mpr ⟨hc, hu⟩) (hwin.trans hwindow.symm) t
      hend hlt
    exact absurd (hfree _ hheld hwin) (not_le.mpr hlt)
  · intro hcommitted
    obtain ⟨claim, hclaim, hid⟩ := List.mem_map.mp hcommitted
    have hordered := committed_ordered hlawful (advances hserved)
    have hname := served_named hserved claim (hordered.issued claim hclaim)
    obtain ⟨hu, hcad⟩ := windowIdFor_inj (hname.symm.trans (hid.trans hwindow.symm))
    -- The watch is past every committed window.
    have hpast := hordered.past claim hclaim
    rw [hu] at hpast
    obtain ⟨-, rt', hrt', -, hlt⟩ := hpast watch hwatch hactive
    obtain rfl := Option.some.inj (hs.runtime.symm.trans hrt')
    exact absurd hcad hlt.ne
  · have hle := hd.generation_le c' (mem_dispatchedFor.mpr ⟨hc, rfl⟩)
    rw [hgeneration, hd.fence (by simp [hwatch])] at hle
    exact absurd hle (Nat.not_succ_le_self _)

end Store

end Dibs
