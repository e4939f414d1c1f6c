import Dibs.Redis.Calls
import Dibs.Recovery.Readings

/-!
# Cancellations that are put off, among clients that play by the rules

The clients of the service create watches under new ids, present claims that were handed out, and commit a
document under the id of its claim; a repair leaves the sidecar of a watch alone. While they do
(`CallSys.Lawful`), a sidecar changes at its revision in `phase` and `cancel_requested` alone, and `phase`
goes to `BOOKING` only (`WatchRuntime.Leads`). So a cancellation that has read a booking in flight finds the
sidecar that it has read, unless its compare stops it.
-/

namespace Dibs

open Function (update)

/-- A sidecar may become another one: its revision does not fall, and while the revision stays it changes in
`cancel_requested` and in `phase` alone, and no booking in flight is taken back. -/
structure WatchRuntime.Leads (r r' : WatchRuntime) : Prop where
  revision : r.revision ≤ r'.revision
  same : r.revision = r'.revision → { r with phase := r'.phase, cancelRequested := r'.cancelRequested } = r'
  booking : r.revision = r'.revision → r.phase = some .booking → r'.phase = some .booking

theorem WatchRuntime.Leads.refl (r : WatchRuntime) : r.Leads r := ⟨le_refl _, fun _ => rfl, fun _ h => h⟩

theorem WatchRuntime.Leads.trans {r r' r'' : WatchRuntime} (h : r.Leads r') (h' : r'.Leads r'') :
    r.Leads r'' := by
  have hrevisions : r.revision = r''.revision → r.revision = r'.revision ∧ r'.revision = r''.revision := by
    intro heq
    have := h.revision
    have := h'.revision
    omega
  refine ⟨h.revision.trans h'.revision, fun heq => ?_, fun heq hphase => ?_⟩
  · obtain ⟨heq, heq'⟩ := hrevisions heq
    rw [← h'.same heq', ← h.same heq]
  · obtain ⟨heq, heq'⟩ := hrevisions heq
    exact h'.booking heq' (h.booking heq hphase)

/-- A sidecar of a higher revision may follow. -/
theorem WatchRuntime.Leads.of_lt {r r' : WatchRuntime} (h : r.revision < r'.revision) : r.Leads r' :=
  ⟨le_of_lt h, fun heq => absurd heq (Nat.ne_of_lt h), fun heq => absurd heq (Nat.ne_of_lt h)⟩

namespace WatchView

/-- What a step does to a watch in use: it does not come back to life, and an active watch keeps its
sidecar, or one that may follow it. -/
def Abides (x x' : WatchView) : Prop :=
  x'.Live → x.Live ∧ ∀ r, x.runtime = some r → ∃ r', x'.runtime = some r' ∧ r.Leads r'

/-- The stored sidecar is one that may follow a given one. -/
def Follows (x : WatchView) (r : WatchRuntime) : Prop :=
  x.Live → ∃ r', x.runtime = some r' ∧ r.Leads r'

theorem Abides.refl (x : WatchView) : x.Abides x := fun hlive => ⟨hlive, fun r hr => ⟨r, hr, .refl r⟩⟩

theorem Follows.abides {x x' : WatchView} {r : WatchRuntime} (h : x.Follows r) (ha : x.Abides x') :
    x'.Follows r := by
  intro hlive'
  obtain ⟨hlive, hstep⟩ := ha hlive'
  obtain ⟨r₁, hr₁, hleads⟩ := h hlive
  obtain ⟨r', hr', hleads'⟩ := hstep r₁ hr₁
  exact ⟨r', hr', hleads.trans hleads'⟩

/-- A watch that is finished or gone. -/
theorem Abides.of_not_live {x x' : WatchView} (h : ¬ x'.Live) : x.Abides x' := fun hlive => absurd hlive h

/-- A sidecar that may follow takes the place of the stored one. -/
theorem Abides.of_runtime {x x' : WatchView} (hlive : x.Live) {r r' : WatchRuntime}
    (hr : x.runtime = some r) (hr' : x'.runtime = some r') (h : r.Leads r') : x.Abides x' := by
  refine fun _ => ⟨hlive, fun r₁ hr₁ => ⟨r', hr', ?_⟩⟩
  obtain rfl := Option.some.inj (hr.symm.trans hr₁)
  exact h

end WatchView

namespace Redis

/-- The database that such clients find: a document is stored under its own id, an active one and its
sidecar have no time to live, and of a new id there is nothing. -/
structure Orderly (db : Redis) (used : List String) : Prop where
  own : ∀ u w, (db.view u).watch = some w → w.watchId = u
  untimed : ∀ u, (db.view u).Live → (db.view u).watchTtl = none ∧ (db.view u).runtimeTtl = none
  vacant : ∀ u, u ∉ used → (db.view u).watch = none ∧ (db.view u).runtime = none

/-- What a step leaves of the watches in use. -/
structure Proceeds (db : Redis) (used : List String) (db' : Redis) : Prop where
  orderly : db'.Orderly used
  abides : ∀ u ∈ used, (db.view u).Abides (db'.view u)

variable {db db' : Redis} {used : List String} {u : String}

theorem Orderly.proceeds_same (h : db.Orderly used) (hview : db'.view = db.view) : db.Proceeds used db' := by
  refine ⟨⟨?_, ?_, ?_⟩, fun u _ => ?_⟩
  all_goals rw [hview]
  · exact h.own
  · exact h.untimed
  · exact h.vacant
  · exact .refl _

theorem Orderly.proceeds_refl (h : db.Orderly used) : db.Proceeds used db := h.proceeds_same rfl

theorem Proceeds.trans {db'' : Redis} (h : db.Proceeds used db') (h' : db'.Proceeds used db'') :
    db.Proceeds used db'' := by
  refine ⟨h'.orderly, fun u hu hlive'' => ?_⟩
  obtain ⟨hlive', hstep'⟩ := h'.abides u hu hlive''
  obtain ⟨hlive, hstep⟩ := h.abides u hu hlive'
  refine ⟨hlive, fun r hr => ?_⟩
  obtain ⟨r', hr', hleads⟩ := hstep r hr
  obtain ⟨r'', hr'', hleads'⟩ := hstep' r' hr'
  exact ⟨r'', hr'', hleads.trans hleads'⟩

/-- A step that changes the view of one watch in use. -/
theorem Orderly.proceeds_update (h : db.Orderly used) (hu : u ∈ used) {x : WatchView}
    (hview : db'.view = update db.view u x) (habides : (db.view u).Abides x)
    (hown : ∀ w, x.watch = some w → w.watchId = u)
    (htime : x.Live → x.watchTtl = none ∧ x.runtimeTtl = none) : db.Proceeds used db' := by
  refine ⟨⟨fun v => ?_, fun v => ?_, fun v hv => ?_⟩, fun v _ => ?_⟩
  all_goals
    rw [hview]
    by_cases heq : v = u
  · subst heq
    simpa using hown
  · simpa [Function.update_of_ne heq] using h.own v
  · subst heq
    simpa using htime
  · simpa [Function.update_of_ne heq] using h.untimed v
  · exact absurd (heq ▸ hu) hv
  · simpa [Function.update_of_ne heq] using h.vacant v hv
  · subst heq
    simpa using habides
  · simpa [Function.update_of_ne heq] using WatchView.Abides.refl (db.view v)

/-- The end or the removal of a watch. -/
theorem Orderly.proceeds_end (h : db.Orderly used) {x : WatchView} (hview : db'.view = update db.view u x)
    (hgone : ¬ x.Live) (hwatch : u ∉ used → x.watch = none ∧ x.runtime = none)
    (hown : ∀ w, x.watch = some w → w.watchId = u) : db.Proceeds used db' := by
  by_cases hu : u ∈ used
  · exact h.proceeds_update hu hview (.of_not_live hgone) hown fun hlive => absurd hlive hgone
  · -- of a new id there is nothing to end
    refine ⟨⟨fun v w hw => ?_, fun v hlive => ?_, fun v hv => ?_⟩, fun v hv => ?_⟩
    all_goals
      rw [hview] at *
      by_cases heq : v = u
    · subst heq
      rw [Function.update_self] at hw
      exact hown w hw
    · rw [Function.update_of_ne heq] at hw
      exact h.own v w hw
    · subst heq
      rw [Function.update_self] at hlive
      exact absurd hlive hgone
    · rw [Function.update_of_ne heq] at hlive ⊢
      exact h.untimed v hlive
    · subst heq
      rw [Function.update_self]
      exact hwatch hu
    · rw [Function.update_of_ne heq]
      exact h.vacant v hv
    · exact absurd (heq ▸ hv) hu
    · rw [Function.update_of_ne heq]
      exact .refl _

theorem Orderly.mem_used (h : db.Orderly used) (hu : (db.view u).watch ≠ none) : u ∈ used := by
  by_contra hno
  exact hu (h.vacant u hno).1

theorem Orderly.mem_of_live (h : db.Orderly used) (hlive : (db.view u).Live) : u ∈ used := by
  obtain ⟨w, hw, -⟩ := hlive
  exact h.mem_used (by simp [hw])

/-! ## What the calls do -/

/-- A creation takes a new id. -/
theorem Orderly.create (h : db.Orderly used) {w : Watch} (r : WatchRuntime) (hnew : w.watchId ∉ used) :
    (db.create w r).2.Orderly (w.watchId :: used) ∧
      ∀ u ∈ used, (db.view u).Abides ((db.create w r).2.view u) := by
  rcases view_create db w r with ⟨-, score, hview⟩ | hdb
  · have hother : ∀ v, v ≠ w.watchId → (db.create w r).2.view v = db.view v := by
      intro v hv
      rw [hview, Function.update_of_ne hv]
    refine ⟨⟨fun v w' hw' => ?_, fun v hlive => ?_, fun v hv => ?_⟩, fun u hu => ?_⟩
    · by_cases hv : v = w.watchId
      · subst hv
        rw [hview, Function.update_self] at hw'
        rw [← Option.some.inj hw']
      · rw [hother v hv] at hw'
        exact h.own v w' hw'
    · by_cases hv : v = w.watchId
      · subst hv
        rw [hview, Function.update_self]
        exact ⟨rfl, rfl⟩
      · rw [hother v hv] at hlive ⊢
        exact h.untimed v hlive
    · obtain ⟨hne, hv⟩ := not_or.mp (mt List.mem_cons.mpr hv)
      rw [hother v hne]
      exact h.vacant v hv
    · rw [hother u fun heq => hnew (heq ▸ hu)]
      exact .refl _
  · rw [hdb]
    exact ⟨⟨h.own, h.untimed, fun v hv => h.vacant v fun hu => hv (List.mem_cons_of_mem _ hu)⟩,
      fun u _ => .refl _⟩

theorem Orderly.claimWindow (h : db.Orderly used) (now : Time) (u windowId ownerId : String)
    (lease : Duration) (ignoreSchedule : Bool) :
    db.Proceeds used (db.claimWindow now u windowId ownerId lease ignoreSchedule).2 := by
  obtain ⟨-, hview | ⟨hlive, hview⟩⟩ :=
    db.view_claimScript u windowId ownerId (leaseMs lease) (toMs now) ignoreSchedule
  · exact h.proceeds_same hview
  · exact h.proceeds_update (h.mem_of_live hlive) hview (.refl _) (h.own u) (h.untimed u)

/-- A permit for a claim of the stored revision stores the sidecar again, with a booking in flight. -/
theorem Orderly.beginBooking (h : db.Orderly used) (now : Time) {c : WindowClaim}
    (hfollows : (db.view c.watch.watchId).Follows c.runtime) :
    db.Proceeds used (db.beginBooking now c).2 := by
  rcases view_beginBooking db now c with ⟨w, r, hw, hactive, hr, hrevision, hview⟩ | hdb
  · have hlive : (db.view c.watch.watchId).Live := ⟨w, hw, hactive⟩
    obtain ⟨r', hr', hleads⟩ := hfollows hlive
    obtain rfl := Option.some.inj (hr.symm.trans hr')
    have hsame := hleads.same hrevision.symm
    have hbooked : r.Leads { c.runtime with phase := some .booking } := by
      refine ⟨le_of_eq hrevision, fun _ => ?_, fun _ _ => rfl⟩
      rw [← hsame]
    exact h.proceeds_update (h.mem_of_live hlive) hview (.of_runtime hlive hr rfl hbooked) (h.own _)
      fun _ => ⟨(h.untimed _ hlive).1, rfl⟩
  · rw [hdb]
    exact h.proceeds_refl

/-- A commit raises the revision. -/
theorem Orderly.commitWindow (h : db.Orderly used) {retention : Duration} (hret : 0 ≤ retention) (now : Time)
    {c : WindowClaim} {nw : Watch} (hid : nw.watchId = c.watch.watchId) (nr : WatchRuntime) :
    db.Proceeds used (db.commitWindow retention now c nw nr).2 := by
  rcases view_commitWindow db hret now c nw nr with
    ⟨w, r, watchTtl, runtimeTtl, hw, hactive, hr, hrevision, htime, -, hview⟩ | ⟨-, hdb⟩
  · have hlive : (db.view c.watch.watchId).Live := ⟨w, hw, hactive⟩
    have hraised : r.Leads (storedRuntime retention now c nw nr) := by
      apply WatchRuntime.Leads.of_lt
      simp [storedRuntime, hrevision]
    refine h.proceeds_update (h.mem_of_live hlive) hview (.of_runtime hlive hr rfl hraised) ?_ ?_
    · rintro w' ⟨⟩
      exact hid
    · rintro ⟨w', ⟨⟩, hactive'⟩
      exact htime hactive'
  · rw [hdb]
    exact h.proceeds_refl

/-- The methods of the dispatch leases are about neither the record nor its times to live. -/
theorem view_claimDispatch (db : Redis) (now : Time) (marker : ScheduleMarker) (ownerId : String)
    (lease : Duration) : (db.claimDispatch now marker ownerId lease).2.view = db.view := by
  unfold claimDispatch claimDispatchScript
  dsimp only
  repeat' split
  all_goals
    funext v
    simp [view, setDispatch, Dict.get?_insert]

theorem view_markDispatched (db : Redis) (now : Time) (c : DispatchClaim) (after : Time) :
    (db.markDispatched now c after).2.view = db.view := by
  unfold markDispatched markDispatchedScript
  repeat' split
  all_goals
    funext v
    simp [view, setDispatch, Dict.get?_insert]

theorem view_releaseDispatch (db : Redis) (c : DispatchClaim) : (db.releaseDispatch c).2.view = db.view := by
  unfold releaseDispatch releaseDispatchScript
  repeat' split
  all_goals first
    | rfl
    | exact view_delDispatch db _ _

/-- A repair of a watch that has no sidecar. -/
theorem Orderly.synthesizeMarker (h : db.Orderly used) (now : Time) (r : WatchRuntime)
    (hrepair : db.runtimes.get? u = none ∨ (db.synthesizeMarker now u r).1 ≠ some true) :
    db.Proceeds used (db.synthesizeMarker now u r).2 := by
  rcases hrepair with hnone | hrefused
  · rcases view_synthesizeMarker db now u r with hdb | ⟨w, ms, hw, hactive, -, hview⟩
    · rw [hdb]
      exact h.proceeds_refl
    · have hlive : (db.view u).Live := ⟨w, hw, hactive⟩
      have hruntime : (db.view u).runtime = none := hnone
      refine h.proceeds_update (h.mem_of_live hlive) hview (fun _ => ⟨hlive, fun r' hr' => ?_⟩) ?_ fun _ =>
        ⟨(h.untimed u hlive).1, rfl⟩
      · rw [hruntime] at hr'
        contradiction
      · rintro w' ⟨⟩
        exact h.own u w hw
  · rcases db.synthesizeMarker_cases now u r with ⟨-, hdb⟩ | ⟨ms, fence, -, hrepaired, -⟩
    · rw [hdb]
      exact h.proceeds_refl
    · exact absurd hrepaired hrefused

/-- What is pruned altogether is not active. -/
theorem Orderly.pruneIndexMember (h : db.Orderly used) (fromAll : Bool)
    (hgone : fromAll = true → ¬ (db.view u).Live) : db.Proceeds used (db.pruneIndexMember u fromAll) := by
  have hview := view_pruneIndexMember db u fromAll
  cases fromAll with
  | false => exact h.proceeds_same hview
  | true => exact h.proceeds_end hview (hgone rfl) (fun hu => ⟨(h.vacant u hu).1, rfl⟩) (h.own u)

theorem view_delete (db : Redis) (u : String) : (db.delete u).2.view =
    update db.view u ⟨none, none, none, none, none, none⟩ := by
  apply view_eq_update
  · simp [view, delete, del, Dict.get?_erase]
  · intro v hv
    simp [view, delete, del, Dict.get?_erase, hv]

theorem Orderly.delete (h : db.Orderly used) (u : String) : db.Proceeds used (db.delete u).2 := by
  refine h.proceeds_end (view_delete db u) ?_ (fun _ => ⟨rfl, rfl⟩) ?_
  · rintro ⟨w, ⟨⟩, -⟩
  · rintro w ⟨⟩

/-- A cleanup deletes finished watches. -/
theorem Orderly.cleanup (h : db.Orderly used) (batch : List String) :
    db.Proceeds used (batch.foldl cleanupOne db) := by
  induction batch generalizing db with
  | nil => exact h.proceeds_refl
  | cons v batch ih =>
    have hone : db.Proceeds used (db.cleanupOne v) := by
      cases hfinished : db.isFinished v with
      | true =>
        rw [cleanupOne_finished hfinished]
        exact h.delete v
      | false =>
        refine h.proceeds_same ?_
        simp only [cleanupOne, hfinished, Bool.false_eq_true, if_false]
        rfl
    exact hone.trans (ih hone.orderly)

/-- A key with a time to live is not one of an active watch. -/
theorem Orderly.del (h : db.Orderly used) {k : RedisKey} (htimed : db.ttl.get? k ≠ none) :
    db.Proceeds used (db.del k) := by
  have hgone : ∀ v, k = .watch v ∨ k = .runtime v → ¬ (db.view v).Live := by
    rintro v (rfl | rfl) hlive
    · exact htimed (h.untimed v hlive).1
    · exact htimed (h.untimed v hlive).2
  cases k with
  | watch u =>
    refine h.proceeds_end (view_delWatch db u) ?_ (fun hu => ⟨rfl, (h.vacant u hu).2⟩) ?_
    · rintro ⟨w, ⟨⟩, -⟩
    · rintro w ⟨⟩
  | runtime u =>
    exact h.proceeds_end (view_delRuntime db u) (hgone u (.inr rfl)) (fun hu => ⟨(h.vacant u hu).1, rfl⟩)
      (h.own u)
  | claim u => exact h.proceeds_same (view_delClaim db u)
  | dispatch u windowHash => exact h.proceeds_same (view_delDispatch db u windowHash)

theorem Orderly.elapse (h : db.Orderly used) (ms : ℤ) : db.Proceeds used (db.elapse ms) := by
  refine ⟨⟨h.own, fun v hlive => ?_, h.vacant⟩, fun v _ hlive => ?_⟩
  · obtain ⟨hwatch, hruntime⟩ := h.untimed v hlive
    constructor
    · change (db.ttl.map (· - ms)).get? (.watch v) = none
      rw [Dict.get?_map]
      exact Option.map_eq_none_iff.mpr hwatch
    · change (db.ttl.map (· - ms)).get? (.runtime v) = none
      rw [Dict.get?_map]
      exact Option.map_eq_none_iff.mpr hruntime
  · exact WatchView.Abides.refl (db.view v) hlive

/-- The end of a watch by a script. -/
theorem Orderly.finish (h : db.Orderly used) (hlive : (db.view u).Live) {nw : Watch}
    (hended : nw.status ≠ .active) (hid : nw.watchId = u) {runtime : Option WatchRuntime} {fence : Option ℕ}
    {score watchTtl runtimeTtl : Option ℤ}
    (hview : db'.view = update db.view u ⟨some nw, runtime, fence, score, watchTtl, runtimeTtl⟩) :
    db.Proceeds used db' := by
  refine h.proceeds_end hview ?_ (fun hu => absurd (h.mem_of_live hlive) hu) ?_
  · rintro ⟨w, ⟨⟩, hactive⟩
    exact absurd hactive hended
  · rintro w ⟨⟩
    exact hid

/-- A cancellation that has read a sidecar that the stored one follows. -/
theorem Orderly.cancelScript (h : db.Orderly used) {retention : Duration} (hret : 0 ≤ retention)
    {watch : Watch} {reading : Option WatchRuntime} (moment : Time)
    (hfollows : ∀ r, reading = some r → (db.view u).Follows r) (hid : watch.watchId = u) :
    db.Proceeds used
      (db.cancelScript u (casRevision reading) (cancelMode retention moment watch reading)).2 := by
  rcases view_cancelScript db u (casRevision reading) (cancelMode retention moment watch reading) with
    hview | ⟨w, hw, hactive, hover, ⟨r, stored, hmode, hstored, hview⟩ | ⟨nw, nr, ms, ttl, hmode, hview⟩⟩
  · exact h.proceeds_same hview
  · -- The intent is recorded in the sidecar that was read.
    have hlive : (db.view u).Live := ⟨w, hw, hactive⟩
    unfold cancelMode at hmode
    split at hmode
    next read hread =>
      obtain ⟨hreading, -⟩ := Option.filter_eq_some_iff.mp hread
      obtain rfl := CancelMode.pending.inj hmode
      subst hreading
      obtain ⟨r', hr', hleads⟩ := hfollows read rfl hlive
      obtain rfl := Option.some.inj (hstored.symm.trans hr')
      have hrevision : stored.revision = read.revision := revision_eq_of_not_overtaken hstored hover
      have hphase := hleads.booking hrevision.symm
      have hsame := hleads.same hrevision.symm
      have hbooking : read.phase = some .booking := by
        simpa using (Option.filter_eq_some_iff.mp hread).2
      have hintent : stored.Leads { read with cancelRequested := true } := by
        refine ⟨le_of_eq hrevision, fun _ => ?_, fun _ _ => hbooking⟩
        rw [← hsame]
      exact h.proceeds_update (h.mem_of_live hlive) hview (.of_runtime hlive hstored rfl hintent) (h.own u)
        fun _ => ⟨(h.untimed u hlive).1, rfl⟩
    next => contradiction
  · unfold cancelMode at hmode
    split at hmode
    next => contradiction
    next =>
      obtain ⟨rfl, -, -, rfl⟩ := CancelMode.cancel.inj hmode
      obtain ⟨watchTtl, runtimeTtl, hview⟩ := hview (terminalDeadlines_pos hret moment)
      refine h.finish ⟨w, hw, hactive⟩ ?_ ?_ hview
      · simp
      · exact hid

theorem Orderly.expireScript (h : db.Orderly used) {retention : Duration} (hret : 0 ≤ retention)
    {watch : Watch} {reading : Option WatchRuntime} {moment : Time} {expected : Option ℕ} {force : Bool}
    {request : ExpireRequest}
    (hrequest : expireRequest retention moment u expected force watch reading = .inr request)
    (hid : watch.watchId = u) :
    db.Proceeds used (db.expireScript u (casRevision reading) request.newWatch request.newRuntime
      request.eventId request.terminalDeleteMs request.retentionTtlMs).2 := by
  obtain ⟨hnw, -, httl⟩ := expireRequest_inr hrequest
  rcases view_expireScript db u (casRevision reading) request.newWatch request.newRuntime
    request.eventId request.terminalDeleteMs request.retentionTtlMs with
    ⟨-, hdb⟩ | ⟨w, hw, hactive, -, hview⟩
  · rw [hdb]
    exact h.proceeds_refl
  · obtain ⟨watchTtl, runtimeTtl, hview⟩ := hview (httl ▸ terminalDeadlines_pos hret moment)
    refine h.finish ⟨w, hw, hactive⟩ ?_ ?_ hview
    · simp [hnw, Watch.ended]
    · simp [hnw, Watch.ended, hid]

end Redis

/-! ## The calls in flight -/

/-- What a cancellation or an expiry in flight has read: a document under its own id, and a sidecar that the
stored one follows. -/
def Client.Informed (retention : Duration) (db : Redis) (used : List String) : Client → Prop
  | .idle | .answered _ | .cancelStart _ _ | .expireStart _ _ _ => True
  | .cancelRead u _ watch | .expireRead u _ _ watch => u ∈ used ∧ watch.watchId = u
  | .cancelSend u _ watch runtime _ _ =>
    u ∈ used ∧ watch.watchId = u ∧ ∀ r, runtime = some r → (db.view u).Follows r
  | .expireSend u watch runtime request _ => u ∈ used ∧ watch.watchId = u ∧
      ∃ moment expected force, expireRequest retention moment u expected force watch runtime = .inr request

theorem Client.Informed.abides {retention : Duration} {db db' : Redis} {used used' : List String}
    {client : Client} (h : client.Informed retention db used) (hused : used ⊆ used')
    (ha : ∀ u ∈ used, (db.view u).Abides (db'.view u)) : client.Informed retention db' used' := by
  cases client with
  | idle | answered | cancelStart | expireStart => trivial
  | cancelRead | expireRead => exact ⟨hused h.1, h.2⟩
  | cancelSend => exact ⟨hused h.1, h.2.1, fun r hr => (h.2.2 r hr).abides (ha _ h.1)⟩
  | expireSend => exact ⟨hused h.1, h.2⟩

/-- One round trip of a client. -/
theorem Client.Informed.step {retention : Duration} (hret : 0 ≤ retention) {db : Redis}
    {used : List String} (horderly : db.Orderly used) {client : Client}
    (h : client.Informed retention db used) (now : Time) :
    db.Proceeds used (client.step retention now db).db ∧
      (client.step retention now db).client.Informed retention (client.step retention now db).db used := by
  have hread : ∀ {u w}, db.get u = some w → u ∈ used ∧ w.watchId = u := by
    intro u w hw
    obtain ⟨hstored, hid⟩ := Option.filter_eq_some_iff.mp hw
    have hview : (db.view u).watch = some w := hstored
    exact ⟨horderly.mem_used (by simp [hview]), by simpa using hid⟩
  cases client with
  | idle | answered => exact ⟨horderly.proceeds_refl, trivial⟩
  | cancelStart u attempts =>
    simp only [Client.step]
    split
    next => exact ⟨horderly.proceeds_refl, trivial⟩
    next w hw =>
      split
      next => exact ⟨horderly.proceeds_refl, trivial⟩
      next => exact ⟨horderly.proceeds_refl, hread hw⟩
  | expireStart u expected force =>
    simp only [Client.step]
    split
    next => exact ⟨horderly.proceeds_refl, trivial⟩
    next w hw =>
      split
      next => exact ⟨horderly.proceeds_refl, trivial⟩
      next => exact ⟨horderly.proceeds_refl, hread hw⟩
  | cancelRead u attempts watch =>
    exact ⟨horderly.proceeds_refl, h.1, h.2, fun r hr _ => ⟨r, hr, .refl r⟩⟩
  | expireRead u expected force watch =>
    simp only [Client.step]
    split
    next => exact ⟨horderly.proceeds_refl, trivial⟩
    next request hrequest => exact ⟨horderly.proceeds_refl, h.1, h.2, now, expected, force, hrequest⟩
  | cancelSend u attempts watch runtime moment current =>
    obtain ⟨-, hid, hfollows⟩ := h
    refine ⟨horderly.cancelScript hret moment hfollows hid, ?_⟩
    simp only [Client.step, cancelNext]
    split <;> trivial
  | expireSend u watch runtime request current =>
    obtain ⟨-, hid, moment, expected, force, hrequest⟩ := h
    exact ⟨horderly.expireScript hret hrequest hid, trivial⟩

/-- A cancellation that has read a booking in flight finds the sidecar that it has read. -/
theorem Client.Informed.current {retention : Duration} {db : Redis} {used : List String} {client : Client}
    (h : client.Informed retention db used) : client.Current db := by
  cases client with
  | cancelSend u attempts watch runtime moment current =>
    cases runtime with
    | none => trivial
    | some r =>
      intro hphase w' r' hw' hactive hr' hrevision
      obtain ⟨r₁, hr₁, hleads⟩ := h.2.2 r rfl ⟨w', hw', hactive⟩
      obtain rfl := Option.some.inj (hr'.symm.trans hr₁)
      have heq : r.revision = r'.revision := (eq_of_luaToString hrevision).symm
      calc { r with cancelRequested := r'.cancelRequested }
          = { r with phase := r'.phase, cancelRequested := r'.cancelRequested } := by
            rw [hphase, hleads.booking heq hphase]
        _ = r' := hleads.same heq
  | _ => trivial

/-! ## The runs -/

namespace CallSys

/-- A step that plays by the rules: an id is taken once, a permit is asked for with a claim that was handed
out, a document is committed under the id of its claim, a marker is repaired where there is no sidecar, and
what is pruned altogether is not active. -/
def Lawful (s : CallSys) : CallLabel → Prop
  | .call (.create watch _) => watch.watchId ∉ s.used
  | .call (.begin claim) => claim ∈ s.issued
  | .call (.commit claim newWatch _) => newWatch.watchId = claim.watch.watchId
  | .call (.synthesize u runtime) =>
    s.db.runtimes.get? u = none ∨ (s.db.synthesizeMarker s.now u runtime).1 ≠ some true
  | .prune u fromAll => fromAll = true → (s.db.watches.get? u).all fun w => w.status.isTerminal
  | _ => True

instance (s : CallSys) : DecidablePred s.Lawful
  | .call (.create watch _) => inferInstanceAs (Decidable (watch.watchId ∉ s.used))
  | .call (.begin claim) => inferInstanceAs (Decidable (claim ∈ s.issued))
  | .call (.commit claim newWatch _) =>
    inferInstanceAs (Decidable (newWatch.watchId = claim.watch.watchId))
  | .call (.synthesize u runtime) =>
    inferInstanceAs (Decidable (s.db.runtimes.get? u = none ∨ (s.db.synthesizeMarker s.now u runtime).1 ≠ some true))
  | .prune u fromAll =>
    inferInstanceAs (Decidable (fromAll = true → (s.db.watches.get? u).all fun w => w.status.isTerminal))
  | .call (.claim _ _ _ _ _) | .call (.cancel _) | .call (.expire _ _ _) | .call (.release _)
  | .call (.claimDispatch _ _ _) | .call (.markDispatched _ _) | .call (.releaseDispatch _)
  | .call (.cleanup _ _) | .clock _ | .elapse _ | .fire _ | .delete _ | .cancel _ _ | .expire _ _ _ _
  | .step _ => inferInstanceAs (Decidable True)

/-- The invariant: the database is in order, and the stored sidecars follow those that were handed out and
read. -/
structure Inv (s : CallSys) : Prop where
  retention_nonneg : 0 ≤ s.retention
  orderly : s.db.Orderly s.used
  issued : ∀ c ∈ s.issued, c.watch.watchId ∈ s.used ∧ (s.db.view c.watch.watchId).Follows c.runtime
  clients : ∀ k, (s.clients k).Informed s.retention s.db s.used

/-- A step of the database keeps the invariant. -/
theorem Inv.proceeds {s : CallSys} (h : s.Inv) {db' : Redis} (hdb : s.db.Proceeds s.used db') (now : Time) :
    Inv { s with now := now, db := db' } where
  retention_nonneg := h.retention_nonneg
  orderly := hdb.orderly
  issued c hc := ⟨(h.issued c hc).1, (h.issued c hc).2.abides (hdb.abides _ (h.issued c hc).1)⟩
  clients k := (h.clients k).abides (List.Subset.refl _) hdb.abides

/-- So does a client that moves on. -/
theorem Inv.client {s : CallSys} (h : s.Inv) (k : ℕ) {client : Client}
    (hclient : client.Informed s.retention s.db s.used) :
    Inv { s with clients := update s.clients k client } where
  retention_nonneg := h.retention_nonneg
  orderly := h.orderly
  issued := h.issued
  clients j := by
    by_cases hj : j = k
    · subst hj
      simpa using hclient
    · simpa [Function.update_of_ne hj] using h.clients j

/-- A lawful call of one script. -/
theorem Inv.call {s : CallSys} (h : s.Inv) {op : Op} (hop : op.OneTrip) (hlawful : s.Lawful (.call op)) :
    (callMachine.exec (.call op) s).Inv := by
  have hrest : op.creates = none → (∀ c, (s.db.call s.retention s.now op).1.bind Reply.handedOut ≠ some c) →
      s.db.Proceeds s.used (s.db.call s.retention s.now op).2 → (callMachine.exec (.call op) s).Inv := by
    intro hcreates hclaim hdb
    have hissued : (s.db.call s.retention s.now op).1.bind Reply.handedOut = none :=
      Option.eq_none_iff_forall_ne_some.mpr hclaim
    simp only [callMachine, hcreates, hissued, Option.toList_none, List.nil_append]
    exact h.proceeds hdb s.now
  have hno : ∀ {α : Type} (x : Option α) (f : α → Reply), (∀ a, (f a).handedOut = none) →
      ∀ c, (x.map f).bind Reply.handedOut ≠ some c := by
    intro α x f hf c hc
    cases x with
    | none => contradiction
    | some a => simp [hf] at hc
  cases op with
  | cancel | expire => contradiction
  | create w r =>
    obtain ⟨horderly, habides⟩ := h.orderly.create r hlawful
    exact {
      retention_nonneg := h.retention_nonneg
      orderly := horderly
      issued := fun c hc => ⟨List.mem_cons_of_mem _ (h.issued c hc).1,
        (h.issued c hc).2.abides (habides _ (h.issued c hc).1)⟩
      clients := fun k => (h.clients k).abides (List.subset_cons_self ..) habides }
  | claim u w o lease ignoreSchedule =>
    have hdb := h.orderly.claimWindow s.now u w o lease ignoreSchedule
    have hproceeds := h.proceeds hdb s.now
    refine { hproceeds with issued := fun c hc => ?_ }
    rcases List.mem_append.mp hc with hnew | hold
    · obtain ⟨reply, hreply, hclaim⟩ := Option.bind_eq_some_iff.mp (Option.mem_toList.mp hnew)
      obtain ⟨result, hresult, rfl⟩ := Option.map_eq_some_iff.mp hreply
      cases result with
      | owned c' =>
        obtain rfl := Option.some.inj hclaim
        obtain ⟨hw, hactive, hr⟩ := Redis.claimWindow_owned hresult
        obtain rfl := h.orderly.own u _ hw
        have hused := h.orderly.mem_of_live ⟨_, hw, hactive⟩
        have hfollows : (s.db.view c'.watch.watchId).Follows c'.runtime := fun _ => ⟨_, hr, .refl _⟩
        exact ⟨hused, hfollows.abides (hdb.abides _ hused)⟩
      | _ => contradiction
    · exact hproceeds.issued c hold
  | begin c => exact hrest rfl (hno _ _ fun _ => rfl) (h.orderly.beginBooking s.now (h.issued c hlawful).2)
  | commit c nw nr =>
    exact hrest rfl (hno _ _ fun _ => rfl) (h.orderly.commitWindow h.retention_nonneg s.now hlawful nr)
  | release c =>
    exact hrest rfl (hno _ _ fun _ => rfl) (h.orderly.proceeds_same (Redis.view_releaseClaim s.db c))
  | claimDispatch marker o lease =>
    exact hrest rfl (hno _ _ fun _ => rfl)
      (h.orderly.proceeds_same (Redis.view_claimDispatch s.db s.now marker o lease))
  | markDispatched c after =>
    exact hrest rfl (hno _ _ fun _ => rfl)
      (h.orderly.proceeds_same (Redis.view_markDispatched s.db s.now c after))
  | releaseDispatch c =>
    exact hrest rfl (hno _ _ fun _ => rfl) (h.orderly.proceeds_same (Redis.view_releaseDispatch s.db c))
  | synthesize u r =>
    exact hrest rfl (hno _ _ fun _ => rfl) (h.orderly.synthesizeMarker s.now r hlawful)
  | cleanup due batchSize =>
    refine hrest rfl (hno (some _) Reply.cleanup fun _ => rfl) ?_
    change s.db.Proceeds s.used (s.db.cleanupDue due batchSize).2
    rw [Redis.cleanupDue_snd]
    exact h.orderly.cleanup _

/-- Every lawful step keeps the invariant. -/
theorem Inv.exec {s : CallSys} (h : s.Inv) {label : CallLabel} (hallowed : callMachine.allowed s label)
    (hlawful : s.Lawful label) : (callMachine.exec label s).Inv := by
  cases label with
  | clock now => exact h.proceeds h.orderly.proceeds_refl now
  | elapse ms => exact h.proceeds (h.orderly.elapse ms) s.now
  | fire key =>
    refine h.proceeds (h.orderly.del fun hnone => ?_) s.now
    have htimed : (s.db.ttl.get? key).any (fun ms => ms ≤ 0) = true := hallowed
    rw [hnone] at htimed
    contradiction
  | call op => exact h.call hallowed hlawful
  | delete u => exact h.proceeds (h.orderly.delete u) s.now
  | prune u fromAll =>
    refine h.proceeds (h.orderly.pruneIndexMember fromAll fun hall => ?_) s.now
    rintro ⟨w, hw, hactive⟩
    have hterminal : (s.db.watches.get? u).all (fun w => w.status.isTerminal) = true := hlawful hall
    have hstored : s.db.watches.get? u = some w := hw
    simp [hstored, hactive] at hterminal
  | cancel k u => exact h.client k trivial
  | expire k u expected force => exact h.client k trivial
  | step k =>
    obtain ⟨hdb, hclient⟩ := (h.clients k).step h.retention_nonneg h.orderly s.now
    exact (h.proceeds hdb s.now).client k hclient

/-- The invariant holds wherever lawful steps lead. -/
theorem inv {s : CallSys} (h : (callMachine.restrict Lawful).Reach s) : s.Inv := by
  refine h.invariant (fun s hi => ?_) fun s label _ hinv ha => hinv.exec ha.1 ha.2
  obtain ⟨hret, hdb, hclients, hused, hissued⟩ := hi
  refine ⟨hret, ?_, by simp [hissued], fun k => by rw [hclients]; trivial⟩
  rw [hdb]
  refine ⟨fun u w hw => ?_, fun u hlive => ?_, fun u _ => ⟨rfl, rfl⟩⟩
  · contradiction
  · obtain ⟨w, hw, -⟩ := hlive
    contradiction

/-- A call that is turned down changes nothing, and a cancellation that is put off changes nothing but
`cancel_requested`: always in the in-memory store, and in Redis exactly in the runs in which each cancellation
that is put off finds the sidecar that it has read. Lawful runs are among them. -/
theorem rejections_untouched_iff {s : CallSys} (hs : callMachine.init s) {labels : List CallLabel}
    (hr : callMachine.Runs s labels) :
    (∀ (m : Memory) (now : Time) (op : Op), op.Scheduled → op.Rejected (m.call now op).1 →
      (m.call now op).2 = m) ∧
    (∀ (m : Memory) (now : Time) (u : String) (w : Watch), (m.cancelIfActive now u).1 = .notEligible w →
      m.Intends u (m.cancelIfActive now u).2) ∧
    (callMachine.EachStep Untouched s labels ↔ callMachine.EachStep Current s labels) ∧
    (callMachine.EachStep Lawful s labels → callMachine.EachStep Current s labels) := by
  refine ⟨fun m now op hop h => m.call_rejected now hop h, fun m now u w h => m.cancel_deferred now h,
    ?_, fun hlawful => ?_⟩
  · exact Machine.eachStep_congr (fun s label _ ha => s.untouched_iff ha) (.init hs) hr
  · refine Machine.eachStep_of_reach (fun s label hreach _ _ => ?_) hs hr hlawful
    cases label with
    | step k => exact ((inv hreach).clients k).current
    | _ => trivial

/-- The store before anything happens. -/
def fresh : CallSys := ⟨0, 60, .empty, fun _ => .idle, [], []⟩

theorem fresh_init : callMachine.init fresh := ⟨by decide, rfl, fun _ => rfl, rfl, rfl⟩

/-- A sidecar with a window but no due time, so that its watch gets no marker. -/
def unscheduledRuntime : WatchRuntime := { RedisSys.sampleRuntime with scheduledFor := none }

def unscheduledClaim : WindowClaim := { RedisSys.sampleClaim with runtime := unscheduledRuntime }

/-- The sidecar with a booking in flight, and the one that recovery stores to repair the marker. -/
def bookingRuntime : WatchRuntime := { unscheduledRuntime with phase := some .booking }

def repairedRuntime : WatchRuntime := { bookingRuntime with scheduledFor := some 61000000 }

/-- A cancellation reads a booking in flight. -/
def deferredRun : List CallLabel :=
  [.call (.create RedisSys.sampleWatch unscheduledRuntime), .call (.claim "w" "w:0" "a" 60000000 false),
    .call (.begin unscheduledClaim), .cancel 0 "w", .step 0, .step 0]

/-- The claim expires and recovery repairs the marker, before the script of the cancellation runs. -/
def repairRun : List CallLabel :=
  deferredRun ++ [.clock 61000000, .call (.synthesize "w" repairedRuntime)]

theorem repairRun_runs : callMachine.Runs fresh (repairRun ++ [.step 0]) := by decide +kernel

/-- The cancellation takes the repair of the sidecar back. -/
theorem repair_taken_back : ¬ ∀ (s : CallSys) (labels : List CallLabel), callMachine.init s →
    callMachine.Runs s labels → callMachine.EachStep Untouched s labels := by
  intro h
  have hsteps := (Machine.eachStep_append.mp (h fresh _ fresh_init repairRun_runs)).2
  have hcurrent : ((callMachine.final fresh repairRun).clients 0).Current
      (callMachine.final fresh repairRun).db := (Client.untouched_iff ..).mp hsteps.1
  have hclient : (callMachine.final fresh repairRun).clients 0 =
      .cancelSend "w" 4 RedisSys.sampleWatch (some bookingRuntime) 0 (some RedisSys.sampleWatch) := by
    decide +kernel
  rw [hclient] at hcurrent
  have hsame := hcurrent rfl RedisSys.sampleWatch repairedRuntime (by decide +kernel) rfl (by decide +kernel)
    (by decide +kernel)
  exact absurd hsame (by decide)

/-- Without the repair, the cancellation of the run `deferredRun` is put off as it should. -/
theorem rejections_untouched_iff_deferred :
    callMachine.EachStep Untouched fresh (deferredRun ++ [.step 0]) := by
  have hr : callMachine.Runs fresh (deferredRun ++ [.step 0]) := by decide +kernel
  obtain ⟨-, -, hiff, hlawful⟩ := rejections_untouched_iff fresh_init hr
  exact hiff.mpr (hlawful (by decide +kernel))

end CallSys

end Dibs
