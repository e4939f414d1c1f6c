import Dibs.Store.Fencing

/-!
# Committed windows

A claim carries the watch and the sidecar it was issued on. As long as it owns its watch they are
what the store holds, up to the phase and the recorded cancellation (`owned_current`): nothing else
is written under an unexpired claim but by its owner. So a commit replaces exactly the state it was
computed from, and when commits advance the cadence, the revisions and the cadence numbers of the
committed claims of a watch increase (`Committed`).

`windows_single_flight` is the result for clients that make any calls but retention cleanup.
-/

namespace Dibs

/-- A sidecar without what a booking in flight changes: the phase and the recorded cancellation. -/
def WatchRuntime.base (r : WatchRuntime) : WatchRuntime :=
  { r with phase := none, cancelRequested := false }

/-- Sidecars that agree so have the same revision. -/
theorem WatchRuntime.revision_eq {r r' : WatchRuntime} (h : r.base = r'.base) :
    r.revision = r'.revision := by
  simpa [base] using congrArg revision h

/-- Sidecars that agree so have the same cadence number. -/
theorem WatchRuntime.cadenceSequence_eq {r r' : WatchRuntime} (h : r.base = r'.base) :
    r.cadenceSequence = r'.cadenceSequence := by
  simpa [base] using congrArg cadenceSequence h

/-- Sidecars that agree so have the same retention deadline. -/
theorem WatchRuntime.terminalDeleteAt_eq {r r' : WatchRuntime} (h : r.base = r'.base) :
    r.terminalDeleteAt = r'.terminalDeleteAt := by
  simpa [base] using congrArg terminalDeleteAt h

/-- The window of a sidecar, if it has one, is named after its cadence number. -/
def WatchRuntime.Named (u : String) (r : WatchRuntime) : Prop :=
  ∀ w, r.windowId = some w → w = windowIdFor u r.cadenceSequence

/-- A commit that leaves the watch active moves it to the next scheduled window. -/
def Op.Advances : Op → Prop
  | .commit c nw nr => nw.status = .active →
      nr.cadenceSequence = c.runtime.cadenceSequence + 1 ∧
        nr.windowId = some (windowIdFor c.watch.watchId nr.cadenceSequence) ∧ nr.scheduledFor ≠ none
  | _ => True

/-- A sidecar that is not computed from a claim names its window after its cadence number. -/
def Op.Named : Op → Prop
  | .create watch runtime => runtime.Named watch.watchId
  | .synthesize u runtime => runtime.Named u
  | _ => True

/-- While a claim owns a row, an effect that leaves it the owner keeps the watch, and the sidecar up
to what a booking in flight changes. -/
theorem Effect.current {d : Duration} {now : Time} {r r' : Row} {op : Op} {reply : Reply}
    {u : String} {n : ℕ} {c : WindowClaim} (hr : r.Keyed u n) (he : Effect d now r op reply r')
    (ho : r.Owns now c) (ho' : r'.Owns now c) :
    r'.watch = r.watch ∧ r'.runtime.map WatchRuntime.base = r.runtime.map WatchRuntime.base := by
  obtain ⟨held, hheld, -, -, hlive⟩ := ho
  obtain ⟨held', hheld', -⟩ := ho'
  cases he with
  | create hnone => simp [hr.vacant hnone, Row.vacant] at hheld
  | synthesize _ _ _ hfree => exact absurd (hfree held hheld) (not_le.mpr hlive)
  | reschedule | finish | cancel | expire => simp [Row.reschedule, Row.finish] at hheld'
  | release => simp at hheld'
  | begin _ hruntime | pend _ hruntime => simp [hruntime, WatchRuntime.base]
  | _ => simp

/-- Effects keep the windows of active watches named after their cadence numbers. -/
theorem Effect.named {d : Duration} {now : Time} {r r' : Row} {op : Op} {reply : Reply} {u : String}
    (he : Effect d now r op reply r') (ht : op.target = u) (hadv : op.Advances) (hname : op.Named)
    (h : ∀ w rt, r.watch = some w → w.status = .active → r.runtime = some rt → rt.Named u) :
    ∀ w rt, r'.watch = some w → w.status = .active → r'.runtime = some rt → rt.Named u := by
  intro w rt hw ha hrt
  cases he with
  | create =>
    obtain rfl := Option.some.inj hrt
    exact ht ▸ hname
  | synthesize =>
    obtain rfl := Option.some.inj hrt
    exact ht ▸ hname
  | begin hwatch hruntime hactive | pend hwatch hruntime hactive =>
    have hn := h _ _ hwatch hactive hruntime
    obtain rfl := Option.some.inj hrt
    exact hn
  | reschedule _ _ _ _ _ hnew =>
    obtain rfl := Option.some.inj hrt
    obtain ⟨-, hwin, -⟩ := hadv hnew
    exact fun w' hw' => ht ▸ Option.some.inj (hw'.symm.trans hwin)
  | finish _ _ _ _ _ hnew =>
    obtain rfl := Option.some.inj hw
    exact absurd ha hnew
  | cancel | expire =>
    obtain rfl := Option.some.inj hw
    simp at ha
  | _ => exact h w rt hw ha hrt

/-- A committed claim is behind a row: while the watch is active, its marker is set and its sidecar is
past the claim's revision and cadence number. -/
def Row.Past (r : Row) (c : WindowClaim) : Prop :=
  ∀ w, r.watch = some w → w.status = .active → r.marker ≠ none ∧
    ∃ rt, r.runtime = some rt ∧ c.runtime.revision < rt.revision ∧
      c.runtime.cadenceSequence < rt.cadenceSequence

/-- The marker of a sidecar with a window and a due time. -/
theorem markerOf_ne_none {u : String} {r : WatchRuntime} {w : String} (hw : r.windowId = some w)
    (hs : r.scheduledFor ≠ none) : markerOf u r ≠ none := by
  unfold markerOf
  cases h : r.scheduledFor with
  | none => exact absurd h hs
  | some due => simp [hw]

/-- Effects keep a row past a claim, when the commits that have an effect are computed from the
stored sidecar and advance the cadence. -/
theorem Row.Past.effect {d : Duration} {now : Time} {r r' : Row} {op : Op} {reply : Reply}
    {c : WindowClaim} (h : r.Past c) (he : Effect d now r op reply r') (hadv : op.Advances)
    (hthere : r.watch ≠ none)
    (hcommit : ∀ c' nw nr, op = .commit c' nw nr → reply.isApplied = true →
      r.runtime.map WatchRuntime.base = some c'.runtime.base) : r'.Past c := by
  cases he with
  | create hnone => exact absurd hnone hthere
  | begin hwatch hruntime hactive | pend hwatch hruntime hactive =>
    obtain ⟨hm, rt, hrt, hlt⟩ := h _ hwatch hactive
    obtain rfl := Option.some.inj (hruntime.symm.trans hrt)
    exact fun w hw ha => ⟨hm, _, rfl, hlt⟩
  | @reschedule c' nw nr watch runtime hwatch hruntime hactive _ _ hnew =>
    obtain ⟨-, rt, hrt, hrev, hcad⟩ := h _ hwatch hactive
    obtain rfl := Option.some.inj (hruntime.symm.trans hrt)
    obtain ⟨hnext, hwin, hdue⟩ := hadv hnew
    have hbase : runtime.base = c'.runtime.base := by
      simpa [hruntime] using hcommit c' nw nr rfl rfl
    have hsame := WatchRuntime.cadenceSequence_eq hbase
    refine fun w hw ha => ⟨markerOf_ne_none hwin hdue, _, rfl, ?_, ?_⟩
    · exact Nat.lt_succ_of_lt hrev
    · show c.runtime.cadenceSequence < nr.cadenceSequence
      omega
  | finish _ _ _ _ _ hnew =>
    intro w hw ha
    obtain rfl := Option.some.inj hw
    exact absurd ha hnew
  | cancel | expire =>
    intro w hw ha
    obtain rfl := Option.some.inj hw
    simp at ha
  | synthesize hwatch hactive hmarker => exact absurd hmarker (h _ hwatch hactive).1
  | _ => exact h

/-- A commit that is computed from the stored sidecar and advances the cadence leaves the row past
its claim. -/
theorem Effect.past_committed {d : Duration} {now : Time} {r r' : Row} {c : WindowClaim} {nw : Watch}
    {nr : WatchRuntime} {reply : Reply} (he : Effect d now r (.commit c nw nr) reply r')
    (hadv : (Op.commit c nw nr).Advances)
    (hbase : r.runtime.map WatchRuntime.base = some c.runtime.base) : r'.Past c := by
  intro w hw ha
  cases he with
  | reschedule _ hruntime _ _ _ hnew =>
    obtain ⟨hnext, hwin, hdue⟩ := hadv hnew
    have hb := WatchRuntime.revision_eq (by simpa [hruntime] using hbase)
    exact ⟨markerOf_ne_none hwin hdue, _, rfl, by simp [hb], by simp [hnext]⟩
  | finish _ _ _ _ _ hnew =>
    obtain rfl := Option.some.inj hw
    exact absurd ha hnew

/-- The claim that a call committed. -/
def Entry.committed (e : Entry) : Option WindowClaim :=
  match e.op, e.reply with
  | .commit c _ _, .commit (.committed _ _) => some c
  | _, _ => none

namespace Store

/-- The claims committed so far, newest first. -/
def committed (s : Store) : List WindowClaim := s.log.filterMap Entry.committed

/-- The state a claim was issued on is the stored one, up to what a booking in flight changes. -/
def Current (s : Store) (c : WindowClaim) : Prop :=
  (s.row c.watch.watchId).watch = some c.watch ∧
    (s.row c.watch.watchId).runtime.map WatchRuntime.base = some c.runtime.base

/-- A claim issued after a call was issued before it or by it. -/
theorem mem_issued_call {s : Store} {op : Op} {c : WindowClaim} (h : c ∈ (s.call op).issued) :
    s.reply op = .claim (.owned c) ∨ c ∈ s.issued := by
  obtain ⟨e, he, hc⟩ := List.mem_filterMap.mp h
  rcases List.mem_cons.mp he with rfl | he
  · refine .inl ?_
    unfold Entry.claimed at hc
    split at hc
    · rename_i c' hr
      obtain rfl := Option.some.inj hc
      exact hr
    · contradiction
  · exact .inr (List.mem_filterMap.mpr ⟨e, he, hc⟩)

/-- Claims are issued on active watches. -/
theorem issued_active {s : Store} (h : (storeMachine Lawful).Reach s) :
    ∀ c ∈ s.issued, c.watch.status = .active := by
  refine h.invariant (P := fun s => ∀ c ∈ s.issued, c.watch.status = .active) ?_ ?_
  · rintro s ⟨-, -, hl⟩ c hc
    simp [issued, hl] at hc
  · intro s i hr ih ha c hc
    cases i with
    | tick now => exact ih c hc
    | call op =>
      rcases mem_issued_call hc with hnew | hold
      · obtain ⟨-, -, -, -, -, hactive, -⟩ := owned_cases hnew
        exact hactive
      · exact ih c hold

/-- A claim that owns its watch was issued on the stored state. -/
theorem owned_current {s : Store} (h : (storeMachine Lawful).Reach s) {c : WindowClaim}
    (hc : c ∈ s.issued) (ho : (s.row c.watch.watchId).Owns s.now c) : s.Current c := by
  refine h.invariant (P := fun s => ∀ c ∈ s.issued,
    (s.row c.watch.watchId).Owns s.now c → s.Current c) ?_ ?_ c hc ho
  · rintro s ⟨-, -, hl⟩ c hc
    simp [issued, hl] at hc
  · intro s i hr ih ha c hc ho
    cases i with
    | tick now =>
      obtain ⟨held, hh, ht, hw, hx⟩ := ho
      exact ih c hc ⟨held, hh, ht, hw, lt_of_le_of_lt ha hx⟩
    | call op =>
      have hk := keyed hr
      change ((s.call op).row c.watch.watchId).Owns s.now c at ho
      rcases mem_issued_call hc with hnew | hold
      · obtain ⟨-, -, -, hwatch, hruntime, -, -, -, -, hrow⟩ := owned_cases hnew
        have hid := (hk op.target).row.watchId _ hwatch
        change (s.call op).Current c
        simp [Current, hid, hrow, hwatch, hruntime]
      · have hu := mem_issuedFor.mpr ⟨hold, rfl⟩
        have hg : c.grant ∈ (s.lease c.watch.watchId).issued := List.mem_map.mpr ⟨c, hu, rfl⟩
        have howns : (s.row c.watch.watchId).Owns s.now c := by
          rw [← lease_owns_iff] at ho ⊢
          exact ((lease_sound hr _).owns_of_step hg le_rfl (lease_call hk op _) ho).1
        have hcur := ih c hold howns
        change (s.call op).Current c
        unfold Current at hcur ⊢
        rcases s.row_call op c.watch.watchId with ⟨-, he⟩ | ⟨hrow, -⟩ | ⟨-, hcl⟩
        · obtain ⟨hw, hrt⟩ := he.current (hk _).row howns ho
          rw [hw, hrt]
          exact hcur
        · rw [hrow]
          exact hcur
        · rcases hcl with hcl | ⟨-, hcl⟩ | ⟨-, hcl⟩
          · rw [hcl]
            exact hcur
          · simp [hcl, Row.Owns, Row.vacant] at ho
          · rw [hcl]
            exact hcur

/-- The commit of a claim that owns its watch is applied. -/
theorem commit_applied {s : Store} (h : (storeMachine Lawful).Reach s) {c : WindowClaim}
    (hc : c ∈ s.issued) (ho : (s.row c.watch.watchId).Owns s.now c) (nw : Watch)
    (nr : WatchRuntime) : (s.reply (.commit c nw nr)).isApplied = true := by
  obtain ⟨hwatch, hbase⟩ := owned_current h hc ho
  obtain ⟨runtime, hruntime, hbase⟩ := Option.map_eq_some_iff.mp hbase
  have hcommitted := Memory.commitWindow_owned hwatch hruntime (issued_active h c hc)
    (WatchRuntime.revision_eq hbase) ho nw nr
  simp only [reply, Memory.call, Prod.map_fst]
  cases hresult : (s.mem.commitWindow s.now c nw nr).1 <;>
    simp_all [CommitResult.isCommitted, Reply.isApplied]

/-! ## The commits of a run -/

/-- The claims committed after a call: those before it, and its own if it committed one. -/
theorem committed_call (s : Store) (op : Op) :
    (∃ c nw nr nw' e, op = .commit c nw nr ∧ s.reply op = .commit (.committed nw' e) ∧
      (s.call op).committed = c :: s.committed) ∨ (s.call op).committed = s.committed := by
  simp only [committed, call_log, List.filterMap_cons]
  split
  · exact .inr rfl
  · rename_i c hc
    refine .inl ?_
    unfold Entry.committed at hc
    split at hc
    · rename_i c' nw nr nw' e hop hre
      obtain rfl := Option.some.inj hc
      exact ⟨c', nw, nr, nw', e, hop, hre, rfl⟩
    · contradiction

/-- A commit that is applied is one more. -/
theorem committed_applied {s : Store} {c : WindowClaim} {nw : Watch} {nr : WatchRuntime}
    (h : (s.reply (.commit c nw nr)).isApplied = true) :
    (s.call (.commit c nw nr)).committed = c :: s.committed := by
  obtain ⟨r, -, he⟩ := effect_of_applied h
  have hentry : Entry.committed ⟨s.now, .commit c nw nr, s.reply (.commit c nw nr)⟩ = some c := by
    generalize s.reply (.commit c nw nr) = reply at he
    cases he <;> rfl
  simp only [committed, call_log, List.filterMap_cons, hentry]

/-- A call that is not an applied commit adds none. -/
theorem committed_of_not_applied {s : Store} {op : Op}
    (h : ∀ c nw nr, op = .commit c nw nr → (s.reply op).isApplied = false) :
    (s.call op).committed = s.committed := by
  rcases committed_call s op with ⟨c, nw, nr, nw', e, rfl, hre, -⟩ | hl
  · have hn := h c nw nr rfl
    rw [hre] at hn
    contradiction
  · exact hl

/-- Commits are ordered: the stored state of every watch is past the claims committed for it, and
along the commits of one watch the revisions and the cadence numbers increase. -/
structure Committed (s : Store) : Prop where
  /-- Only issued claims commit. -/
  issued : ∀ c ∈ s.committed, c ∈ s.issued
  /-- The stored state is past every committed claim. -/
  past : ∀ c ∈ s.committed, (s.row c.watch.watchId).Past c
  /-- A later commit of the same watch is of a later revision and cadence number. -/
  increasing : s.committed.Pairwise fun c c' => c'.watch.watchId = c.watch.watchId →
    c'.runtime.revision < c.runtime.revision ∧
      c'.runtime.cadenceSequence < c.runtime.cadenceSequence

/-- A call keeps the order of the commits. -/
theorem Committed.call {s : Store} (hr : (storeMachine Lawful).Reach s) (h : s.Committed) {op : Op}
    (ho : Lawful s op) (hadv : op.Advances) : (s.call op).Committed := by
  have hk := keyed hr
  have hcur : ∀ c nw nr, op = .commit c nw nr → (s.reply op).isApplied = true →
      (s.row c.watch.watchId).runtime.map WatchRuntime.base = some c.runtime.base ∧
        ∃ w, (s.row c.watch.watchId).watch = some w ∧ w.status = .active := by
    rintro c nw nr rfl happ
    obtain ⟨r, -, he⟩ := effect_of_applied happ
    generalize s.reply (.commit c nw nr) = reply at he
    cases he with
    | reschedule hwatch _ hactive _ howns | finish hwatch _ hactive _ howns =>
      exact ⟨(owned_current hr ho.1.1 howns).2, _, hwatch, hactive⟩
  -- What the stored state was past, it is still past.
  have hpast : ∀ c ∈ s.issued, (s.row c.watch.watchId).Past c →
      ((s.call op).row c.watch.watchId).Past c := by
    intro c hc hp
    rcases s.row_call op c.watch.watchId with ⟨ht, he⟩ | ⟨hrow, -⟩ | ⟨-, hcl⟩
    · by_cases hthere : (s.row c.watch.watchId).watch = none
      · obtain ⟨w, rt, rfl, -⟩ := he.create_of_watch_none (hk _).row hthere
        have ht : w.watchId = c.watch.watchId := ht
        have hu : s.issuedFor c.watch.watchId ≠ [] :=
          List.ne_nil_of_mem (mem_issuedFor.mpr ⟨hc, rfl⟩)
        rw [← ht] at hthere hu
        exact absurd ((hk _).issued hu) (ho.2 hthere)
      · refine hp.effect he hadv hthere ?_
        rintro c' nw nr rfl happ
        have ht : c'.watch.watchId = c.watch.watchId := ht
        rw [← ht]
        exact (hcur c' nw nr rfl happ).1
    · rw [hrow]
      exact hp
    · rcases hcl with hcl | ⟨-, hcl⟩ | ⟨-, hcl⟩ <;> rw [hcl]
      · exact hp
      · intro w hw
        simp [Row.vacant] at hw
      · exact hp
  rcases committed_call s op with ⟨c, nw, nr, nw', e, rfl, hre, hl⟩ | hl
  · obtain ⟨hbase, w, hw, ha⟩ := hcur c nw nr rfl (by rw [hre]; rfl)
    have hc : c ∈ s.issued := ho.1.1
    refine ⟨fun c' hc' => ?_, fun c' hc' => ?_, ?_⟩
    · rw [hl] at hc'
      rcases List.mem_cons.mp hc' with rfl | hc'
      · exact issued_call _ hc
      · exact issued_call _ (h.issued c' hc')
    · rw [hl] at hc'
      rcases List.mem_cons.mp hc' with rfl | hc'
      · obtain ⟨r, hr', he⟩ := effect_of_reply hre rfl
        rw [show (s.call (.commit c' nw nr)).row c'.watch.watchId = r from hr']
        exact he.past_committed hadv hbase
      · exact hpast c' (h.issued c' hc') (h.past c' hc')
    · rw [hl]
      refine List.pairwise_cons.mpr ⟨fun c' hc' hid => ?_, h.increasing⟩
      have hp := h.past c' hc'
      rw [hid] at hp
      obtain ⟨-, rt, hrt, hrev, hcad⟩ := hp w hw ha
      have hb : rt.base = c.runtime.base := by simpa [hrt] using hbase
      exact ⟨WatchRuntime.revision_eq hb ▸ hrev, WatchRuntime.cadenceSequence_eq hb ▸ hcad⟩
  · exact ⟨fun c hc => issued_call op (h.issued c (hl ▸ hc)),
      fun c hc => hpast c (h.issued c (hl ▸ hc)) (h.past c (hl ▸ hc)), hl ▸ h.increasing⟩

/-- When every commit advances the cadence, the commits of a reachable state are ordered. -/
theorem committed_ordered {s : Store} (h : (storeMachine Lawful).Reach s)
    (hadv : ∀ e ∈ s.log, e.op.Advances) : s.Committed := by
  refine h.invariant (P := fun s => (∀ e ∈ s.log, e.op.Advances) → s.Committed) ?_ ?_ hadv
  · rintro s ⟨-, -, hl⟩ -
    have hc : s.committed = [] := by simp [committed, hl]
    exact ⟨by simp [hc], by simp [hc], by simp [hc]⟩
  · intro s i hr ih ha hadv
    cases i with
    | tick now => exact ⟨(ih hadv).issued, (ih hadv).past, (ih hadv).increasing⟩
    | call op =>
      have hall := List.forall_mem_cons.mp hadv
      exact (ih hall.2).call hr ha hall.1

/-- When commits are ordered and claims are on the windows of their cadence numbers, no window is
committed twice. -/
theorem Committed.windows_nodup {s : Store} (h : s.Committed)
    (hnamed : ∀ c ∈ s.issued, c.windowId = windowIdFor c.watch.watchId c.runtime.cadenceSequence) :
    (s.committed.map WindowClaim.windowId).Nodup := by
  refine List.pairwise_map.mpr (h.increasing.imp_of_mem fun {c c'} hc hc' hlt he => ?_)
  rw [hnamed c (h.issued c hc), hnamed c' (h.issued c' hc')] at he
  obtain ⟨hid, hcad⟩ := windowIdFor_inj he
  exact absurd (hlt hid.symm).2 (by omega)

/-- When sidecars name their windows after their cadence numbers, so do those of all claims. -/
theorem issued_named {s : Store} (h : (storeMachine Lawful).Reach s)
    (hadv : ∀ e ∈ s.log, e.op.Advances) (hname : ∀ e ∈ s.log, e.op.Named) :
    ∀ c ∈ s.issued, c.windowId = windowIdFor c.watch.watchId c.runtime.cadenceSequence := by
  refine (h.invariant (P := fun s => (∀ e ∈ s.log, e.op.Advances) → (∀ e ∈ s.log, e.op.Named) →
    (∀ u w rt, (s.row u).watch = some w → w.status = .active → (s.row u).runtime = some rt →
      rt.Named u) ∧
    ∀ c ∈ s.issued, c.windowId = windowIdFor c.watch.watchId c.runtime.cadenceSequence)
    ?_ ?_ hadv hname).2
  · rintro s ⟨d, hm, hl⟩ - -
    refine ⟨fun u w rt hw => ?_, by simp [issued, hl]⟩
    simp [row, hm, Row.vacant] at hw
  · intro s i hr ih ha hadv hname
    cases i with
    | tick now => exact ih hadv hname
    | call op =>
      obtain ⟨hadv1, hadv⟩ := List.forall_mem_cons.mp hadv
      obtain ⟨hname1, hname⟩ := List.forall_mem_cons.mp hname
      obtain ⟨hrow, hissued⟩ := ih hadv hname
      refine ⟨fun u w rt => ?_, fun c hc => ?_⟩
      · change ((s.call op).row u).watch = some w → w.status = .active →
          ((s.call op).row u).runtime = some rt → rt.Named u
        rcases s.row_call op u with ⟨ht, he⟩ | ⟨hsame, -⟩ | ⟨-, hcl⟩
        · exact he.named ht hadv1 hname1 (hrow u) w rt
        · rw [hsame]
          exact hrow u w rt
        · rcases hcl with hcl | ⟨-, hcl⟩ | ⟨-, hcl⟩ <;> rw [hcl]
          · exact hrow u w rt
          · simp [Row.vacant]
          · exact hrow u w rt
      · rcases mem_issued_call hc with hnew | hold
        · obtain ⟨-, -, -, hwatch, hruntime, hactive, hwin, -⟩ := owned_cases hnew
          have hid := ((keyed hr) op.target).row.watchId _ hwatch
          rw [hid]
          exact hrow _ _ _ hwatch hactive hruntime _ hwin
        · exact hissued c hold

end Store

/-! ## Runs without cleanup -/

/-- Calls of every method but the retention cleanup, as every caller makes them. -/
def Retained (s : Store) (op : Op) : Prop :=
  Presented s op ∧ op.isCleanup = false

instance (s : Store) : DecidablePred (Retained s) := fun op =>
  inferInstanceAs (Decidable (Presented s op ∧ op.isCleanup = false))

namespace Store

/-- Where created watches stay, the calls without cleanup are lawful. -/
theorem retained_allowed {s : Store} (hc : ∀ u ∈ s.created, (s.row u).watch ≠ none)
    {i : StoreLabel} (ha : (storeMachine Retained).allowed s i) :
    (storeMachine Lawful).allowed s i := by
  cases i with
  | tick now => exact ha
  | call op =>
    refine ⟨ha.1, ?_⟩
    cases op with
    | create watch runtime => exact fun hnone hu => hc _ hu hnone
    | _ => trivial

/-- A watch created after a call was created before it or by it. -/
theorem mem_created_call {s : Store} {op : Op} {u : String} (h : u ∈ (s.call op).created) :
    u ∈ s.created ∨ (op.target = u ∧ (s.reply op).isApplied = true) := by
  obtain ⟨e, he, hu⟩ := List.mem_filterMap.mp h
  rcases List.mem_cons.mp he with rfl | he
  · unfold Entry.created at hu
    split at hu
    · rename_i w rt hre
      have hre : s.reply op = .create (.created w rt) := hre
      obtain ⟨r, -, heff⟩ := effect_of_reply hre rfl
      rw [hre]
      cases heff with
      | create => exact .inr ⟨Option.some.inj hu, rfl⟩
    · contradiction
  · exact .inl (List.mem_filterMap.mpr ⟨e, he, hu⟩)

/-- Without cleanup, a created watch stays, so no id is ever used twice. -/
theorem lawful_of_retained {s : Store} (h : (storeMachine Retained).Reach s) :
    (storeMachine Lawful).Reach s ∧ ∀ u ∈ s.created, (s.row u).watch ≠ none := by
  refine h.invariant (P := fun s => (storeMachine Lawful).Reach s ∧
    ∀ u ∈ s.created, (s.row u).watch ≠ none) ?_ ?_
  · rintro s ⟨d, hm, hl⟩
    exact ⟨.init ⟨d, hm, hl⟩, by simp [created, hl]⟩
  · rintro s i - ⟨hr, hc⟩ ha
    refine ⟨Machine.Reach.step (M := storeMachine Lawful) i hr (retained_allowed hc ha), ?_⟩
    cases i with
    | tick now => exact hc
    | call op =>
      intro u hu
      change ((s.call op).row u).watch ≠ none
      rcases s.row_call op u with ⟨-, he⟩ | ⟨hsame, hno⟩ | ⟨⟨due, batchSize, rfl⟩, -⟩
      · exact he.watch_ne_none (keyed hr u).row
      · rw [hsame]
        rcases mem_created_call hu with hu | ⟨ht, happ⟩
        · exact hc u hu
        · rw [(hno ht).1] at happ
          contradiction
      · exact absurd ha.2 (by simp [Op.isCleanup])

/-- What follows a reachable state without cleanup follows it in general. -/
theorem later_of_retained {s s' : Store} (h : (storeMachine Retained).Reach s)
    (hl : (storeMachine Retained).Later s s') : (storeMachine Lawful).Later s s' := by
  refine hl.map (N := storeMachine Lawful) (f := id) (fun s i hr ha => ?_) h
  exact .single ⟨i, retained_allowed (lawful_of_retained hr).2 ha, rfl⟩

/-- The ownership check that `begin_booking` and `commit_window` make of a claim. -/
def Passes (s : Store) (c : WindowClaim) : Prop :=
  ∃ r, s.mem.runtimes.get? c.watch.watchId = some r ∧ s.mem.owns s.now c r = true

/-- A claim cannot act any more: a later one was issued for its watch, it was released, its lease has
passed, or its watch is terminal. -/
def Dead (s : Store) (c : WindowClaim) : Prop :=
  (∃ c' ∈ s.issued, c'.watch.watchId = c.watch.watchId ∧ c.token < c'.token) ∨
  (∃ e ∈ s.log, e.op = .release c ∧ e.reply = .flag true) ∨
  c.leaseExpiresAt ≤ s.now ∨
  ∃ w, s.mem.watches.get? c.watch.watchId = some w ∧ w.status.isTerminal = true

/-- A released claim is over. -/
theorem over_of_released {s : Store} (h : (storeMachine Lawful).Reach s) {c : WindowClaim}
    (hrel : ∃ e ∈ s.log, e.op = .release c ∧ e.reply = .flag true) : s.Over c := by
  refine (h.invariant (P := fun s => (∃ e ∈ s.log, e.op = .release c ∧ e.reply = .flag true) →
    c ∈ s.issued ∧ s.Over c) ?_ ?_ hrel).2
  · rintro s ⟨-, -, hl⟩ ⟨e, he, -⟩
    simp [hl] at he
  · intro s i hr ih ha hrel
    have hnext : c ∈ s.issued ∧ s.Over c →
        c ∈ ((storeMachine Lawful).exec i s).issued ∧ ((storeMachine Lawful).exec i s).Over c :=
      fun hc => hc.2.later hr (.single ⟨i, ha, rfl⟩) hc.1
    cases i with
    | tick now => exact hnext (ih hrel)
    | call op =>
      obtain ⟨e, he, hop, hre⟩ := hrel
      rcases List.mem_cons.mp he with rfl | he
      · obtain rfl : op = .release c := hop
        have hre : s.reply (.release c) = .flag true := hre
        obtain ⟨r, hrow, heff⟩ := effect_of_reply hre rfl
        refine ⟨issued_call _ ha.1, .inl ?_⟩
        change ¬ ((s.call (.release c)).row c.watch.watchId).Owns s.now c
        rw [show (s.call (.release c)).row c.watch.watchId = r from hrow]
        cases heff with
        | release => simp [Row.Owns]
      · exact hnext (ih ⟨e, he, hop, hre⟩)

/-- A claim that passes the check is the newest of its watch, and its lease has not passed. -/
theorem passes_newest {s : Store} (h : (storeMachine Lawful).Reach s) {c : WindowClaim}
    (hc : c ∈ s.issued) (ho : (s.row c.watch.watchId).Owns s.now c) :
    s.now < c.leaseExpiresAt ∧
      ∀ c' ∈ s.issued, c'.watch.watchId = c.watch.watchId → c'.token ≤ c.token := by
  have hs := lease_sound h c.watch.watchId
  have hg : c.grant ∈ (s.lease c.watch.watchId).issued :=
    List.mem_map.mpr ⟨c, mem_issuedFor.mpr ⟨hc, rfl⟩, rfl⟩
  rw [← lease_owns_iff] at ho
  refine ⟨(hs.held_of_owns hg ho).2, fun c' hc' hid => ?_⟩
  exact hs.newest_of_owns hg ho c'.grant (List.mem_map.mpr ⟨c', mem_issuedFor.mpr ⟨hc', hid⟩, rfl⟩)

/-- A dead claim is over. -/
theorem Dead.over {s : Store} (h : (storeMachine Lawful).Reach s) {c : WindowClaim}
    (hc : c ∈ s.issued) (hd : s.Dead c) : s.Over c := by
  rcases hd with ⟨c', hc', hid, hlt⟩ | hrel | hexp | ⟨w, hw, hterm⟩
  · exact .inl fun ho => absurd ((passes_newest h hc ho).2 c' hc' hid) (not_le.mpr hlt)
  · exact over_of_released h hrel
  · exact .inl fun ho => absurd (passes_newest h hc ho).1 (not_lt.mpr hexp)
  · refine .inr fun w' hw' => ?_
    obtain rfl : w = w' := Option.some.inj (hw.symm.trans hw')
    simpa using hterm

/-- The tokens issued for one watch increase. -/
theorem tokens_increase {s : Store} (h : (storeMachine Lawful).Reach s) (u : String) :
    (s.issuedFor u).Pairwise fun c c' => c'.token < c.token :=
  List.pairwise_map.mp (lease_sound h u).decreasing

/-- Single-flight, fenced windows. In every reachable state the tokens issued for a watch increase
over the run; a claim that passes the ownership check has the greatest token of its watch and a
lease that has not passed, and no other claim of the watch passes it; a claim that was superseded or
released, whose lease has passed or whose watch is terminal, never gets a permit and never commits
from then on; and when every commit advances the cadence, no revision and no window is committed
twice. -/
theorem windows_single_flight {s : Store} (h : (storeMachine Retained).Reach s) :
    (∀ u, (s.issuedFor u).Pairwise fun c c' => c'.token < c.token) ∧
    (∀ c ∈ s.issued, s.Passes c → s.now < c.leaseExpiresAt ∧
      ∀ c' ∈ s.issued, c'.watch.watchId = c.watch.watchId →
        c'.token ≤ c.token ∧ (s.Passes c' → c' = c)) ∧
    (∀ c ∈ s.issued, s.Dead c → ∀ s', (storeMachine Retained).Later s s' →
      (s'.reply (.begin c)).isApplied = false ∧
        ∀ nw nr, (s'.reply (.commit c nw nr)).isApplied = false) ∧
    ((∀ e ∈ s.log, e.op.Advances) →
      (s.committed.map fun c => (c.watch.watchId, c.runtime.revision)).Nodup ∧
        ((∀ e ∈ s.log, e.op.Named) → (s.committed.map WindowClaim.windowId).Nodup)) := by
  have hr := (lawful_of_retained h).1
  have hown : ∀ c, s.Passes c → (s.row c.watch.watchId).Owns s.now c := by
    rintro c ⟨r, -, hp⟩
    exact ((Memory.owns_iff s.mem s.now c r).mp hp).2
  refine ⟨tokens_increase hr, fun c hc hp => ?_, fun c hc hd s' hl => ?_, fun hadv => ?_⟩
  · obtain ⟨hlive, hnew⟩ := passes_newest hr hc (hown c hp)
    refine ⟨hlive, fun c' hc' hid => ⟨hnew c' hc' hid, fun hp' => ?_⟩⟩
    have hle := (passes_newest hr hc' (hown c' hp')).2 c hc hid.symm
    exact Lease.eq_of_decreasing WindowClaim.token (tokens_increase hr _)
      (mem_issuedFor.mpr ⟨hc', hid⟩) (mem_issuedFor.mpr ⟨hc, rfl⟩)
      (le_antisymm (hnew c' hc' hid) hle)
  · exact ((hd.over hr hc).later hr (later_of_retained h hl) hc).2.refused
  · have hord := committed_ordered hr hadv
    refine ⟨List.pairwise_map.mpr (hord.increasing.imp fun {c c'} hlt he => ?_),
      fun hname => hord.windows_nodup (issued_named hr hadv hname)⟩
    obtain ⟨hid, hrev⟩ := Prod.mk.inj he
    exact absurd (hlt hid.symm).1 (by omega)

/-- A run in which a second owner takes the first window over when the first owner's lease has
passed, and the first owner then comes back. -/
def takeover : List StoreLabel :=
  let watch := Watch.sample "w" true 1000 5
  [.call (.create watch (initialRuntime watch 5 true none)), .call (.claim "w" "w:0" "a" 10 false),
    .tick 10, .call (.claim "w" "w:0" "b" 10 false)]

/-- The store after `takeover`. -/
def takenOver : Store := (storeMachine Retained).final ⟨Memory.empty 60, 0, []⟩ takeover

/-- In the run `takeover` the first owner's claim gets no permit any more. -/
theorem windows_single_flight_takeover :
    ∃ c ∈ takenOver.issued, c.token = 1 ∧ (takenOver.reply (.begin c)).isApplied = false := by
  have h0 : (storeMachine Retained).Reach ⟨Memory.empty 60, 0, []⟩ := .init ⟨60, rfl, rfl⟩
  have hruns : (storeMachine Retained).Runs ⟨Memory.empty 60, 0, []⟩ takeover := by decide +kernel
  have hr : (storeMachine Retained).Reach takenOver := h0.final hruns
  have hd : ∃ c ∈ takenOver.issued, c.token = 1 ∧ c.leaseExpiresAt ≤ takenOver.now := by
    decide +kernel
  obtain ⟨c, hc, ht, hx⟩ := hd
  exact ⟨c, hc, ht, ((windows_single_flight hr).2.2.1 c hc (.inr (.inr (.inl hx))) _ .refl).1⟩

end Store

end Dibs
