import Dibs.Redis.Clients
import Dibs.Redis.View
import Dibs.Service.Plan

/-!
# Stale readings of a watch

Whoever acts on a watch acts on what it has read of it: a claim on the record that it was issued with, a
cancellation on a document and a sidecar that were read one after the other, a recovery pass on four
readings. `WatchView.Keeps` is what every step does to a watch in use, whoever takes it. A reading of a
sidecar `Fits` a view when it is as old as the view at most, and still of the stored version while the
watch is active and has no marker; no step takes that away (`WatchView.Fits.keeps`). From readings that
fit, every method evolves the database in that sense (`Redis.Evolves`).
-/

namespace Dibs

open Function (update)

/-- The revision and the cadence of a sidecar. -/
def WatchRuntime.version (r : WatchRuntime) : ℕ × ℕ := (r.revision, r.cadenceSequence)

namespace WatchView

/-- The document is there and active. -/
def Live (x : WatchView) : Prop := ∃ w, x.watch = some w ∧ w.status = .active

/-- What a step may do to a watch in use. -/
structure Keeps (x x' : WatchView) : Prop where
  /-- A watch that is finished or gone stays so. -/
  live : x'.Live → x.Live
  /-- Neither revision nor cadence falls, and only an active watch gets a sidecar. -/
  runtime : ∀ r', x'.runtime = some r' →
    (∃ r, x.runtime = some r ∧ r.revision ≤ r'.revision ∧ r.cadenceSequence ≤ r'.cadenceSequence ∧
      (r.revision = r'.revision → r.cadenceSequence = r'.cadenceSequence)) ∨ x.runtime = none ∧ x.Live
  /-- An active watch keeps its sidecar. -/
  sidecar : x'.Live → x.runtime.isSome → x'.runtime.isSome
  /-- The fence does not fall, and only an active watch gets one. -/
  fence : ∀ n', x'.fence = some n' → (∃ n, x.fence = some n ∧ n ≤ n') ∨ x.fence = none ∧ x.Live
  /-- An active watch keeps its fence. -/
  fenced : x'.Live → x.fence.isSome → x'.fence.isSome
  /-- An active watch keeps its marker. -/
  marked : x'.Live → x.score.isSome → x'.score.isSome
  /-- As long as there is no marker, no commit and no repair has come by. -/
  version : x'.Live → x'.score = none → x'.runtime.map (·.version) = x.runtime.map (·.version)

/-- A reading of the sidecar of a watch, as far as it is still right. -/
def Fits (x : WatchView) (reading : Option WatchRuntime) : Prop :=
  x.Live →
    (x.runtime = none → reading = none) ∧
    ∀ r', x.runtime = some r' →
      (∀ r, reading = some r → r.revision ≤ r'.revision ∧
        (r.revision = r'.revision → r.cadenceSequence = r'.cadenceSequence)) ∧
      (x.score = none → reading.map (·.version) = some r'.version)

theorem Keeps.refl (x : WatchView) : x.Keeps x where
  live h := h
  runtime r' h := .inl ⟨r', h, le_refl _, le_refl _, fun _ => rfl⟩
  sidecar _ h := h
  fence n' h := .inl ⟨n', h, le_refl _⟩
  fenced _ h := h
  marked _ h := h
  version _ _ := rfl

/-- What is stored is read right. -/
theorem fits_runtime (x : WatchView) : x.Fits x.runtime := by
  intro _
  refine ⟨fun h => h, fun r' hr' => ⟨fun r hr => ?_, fun _ => by rw [hr']; rfl⟩⟩
  obtain rfl := Option.some.inj (hr.symm.trans hr')
  exact ⟨le_refl _, fun _ => rfl⟩

/-- A reading stays as right as it was. -/
theorem Fits.keeps {x x' : WatchView} {reading : Option WatchRuntime} (h : x.Fits reading)
    (hk : x.Keeps x') : x'.Fits reading := by
  intro hlive'
  have hlive := hk.live hlive'
  obtain ⟨hnone, hsome⟩ := h hlive
  constructor
  · intro hr'
    apply hnone
    by_contra hr
    have := hk.sidecar hlive' (Option.isSome_iff_ne_none.mpr hr)
    simp [hr'] at this
  · intro r' hr'
    rcases hk.runtime r' hr' with ⟨r, hr, hle, -, heq⟩ | ⟨hr, -⟩
    · obtain ⟨hbelow, hsame⟩ := hsome r hr
      refine ⟨fun r₀ hr₀ => ?_, fun hscore' => ?_⟩
      · obtain ⟨hle₀, heq₀⟩ := hbelow r₀ hr₀
        refine ⟨hle₀.trans hle, fun h₀ => ?_⟩
        have hrev : r₀.revision = r.revision := by omega
        exact (heq₀ hrev).trans (heq (by omega))
      · have hscore : x.score = none := by
          by_contra hscore
          have := hk.marked hlive' (Option.isSome_iff_ne_none.mpr hscore)
          simp [hscore'] at this
        have hversion := hk.version hlive' hscore'
        rw [hr', hr] at hversion
        exact (hsame hscore).trans hversion.symm
    · have hreading := hnone hr
      subst hreading
      refine ⟨fun r₀ hr₀ => by contradiction, fun hscore' => ?_⟩
      have hversion := hk.version hlive' hscore'
      rw [hr', hr] at hversion
      contradiction

/-- The sidecar has come at least as far. -/
def Beyond (r : WatchRuntime) (x : WatchView) : Prop :=
  (x.Live → x.runtime.isSome) ∧
    ∀ r', x.runtime = some r' → r.revision ≤ r'.revision ∧ r.cadenceSequence ≤ r'.cadenceSequence

theorem Beyond.keeps {x x' : WatchView} {r : WatchRuntime} (hk : x.Keeps x') (h : x.Beyond r) :
    x'.Beyond r := by
  refine ⟨fun hlive => hk.sidecar hlive (h.1 (hk.live hlive)), fun r' hr' => ?_⟩
  rcases hk.runtime r' hr' with ⟨r₁, hr₁, hrevision, hcadence, -⟩ | ⟨hnone, hlive⟩
  · obtain ⟨hrevision₁, hcadence₁⟩ := h.2 r₁ hr₁
    exact ⟨hrevision₁.trans hrevision, hcadence₁.trans hcadence⟩
  · have hsome := h.1 hlive
    simp [hnone] at hsome

/-- The fence has come at least as far. -/
def Raised (n : ℕ) (x : WatchView) : Prop :=
  (x.Live → x.fence.isSome) ∧ ∀ n', x.fence = some n' → n ≤ n'

theorem Raised.keeps {x x' : WatchView} {n : ℕ} (hk : x.Keeps x') (h : x.Raised n) : x'.Raised n := by
  refine ⟨fun hlive => hk.fenced hlive (h.1 (hk.live hlive)), fun n' hn' => ?_⟩
  rcases hk.fence n' hn' with ⟨n₁, hn₁, hle⟩ | ⟨hnone, hlive⟩
  · exact (h.2 n₁ hn₁).trans hle
  · have hsome := h.1 hlive
    simp [hnone] at hsome

/-! ## What a step may do -/

variable {x x' : WatchView}

/-- A watch that is finished or gone may lose its document, its sidecar and its fence. -/
theorem Keeps.of_removal (hlive : ¬ x.Live) (hwatch : x'.watch = x.watch ∨ x'.watch = none)
    (hruntime : x'.runtime = x.runtime ∨ x'.runtime = none)
    (hfence : x'.fence = x.fence ∨ x'.fence = none) : x.Keeps x' := by
  have hgone : ¬ x'.Live := by
    rintro ⟨w, hw, hactive⟩
    rcases hwatch with h | h
    · exact hlive ⟨w, h ▸ hw, hactive⟩
    · rw [h] at hw
      contradiction
  refine ⟨fun h => absurd h hgone, fun r' hr' => ?_, fun h => absurd h hgone, fun n' hn' => ?_,
    fun h => absurd h hgone, fun h => absurd h hgone, fun h => absurd h hgone⟩
  · rcases hruntime with h | h
    · exact .inl ⟨r', h ▸ hr', le_refl _, le_refl _, fun _ => rfl⟩
    · rw [h] at hr'
      contradiction
  · rcases hfence with h | h
    · exact .inl ⟨n', h ▸ hn', le_refl _⟩
    · rw [h] at hn'
      contradiction

/-- The fence of an active watch may be raised. -/
theorem Keeps.of_fence (hlive : x.Live) {n : ℕ} (hle : x.fence.getD 0 ≤ n) :
    x.Keeps { x with fence := some n } := by
  refine ⟨fun h => h, fun r' hr' => .inl ⟨r', hr', le_refl _, le_refl _, fun _ => rfl⟩, fun _ h => h,
    fun n' hn' => ?_, fun _ _ => rfl, fun _ h => h, fun _ _ => rfl⟩
  obtain rfl := Option.some.inj hn'
  cases hfence : x.fence with
  | none => exact .inr ⟨rfl, hlive⟩
  | some n₀ => exact .inl ⟨n₀, rfl, by simpa [hfence] using hle⟩

/-- A sidecar may be replaced by one of the same version. -/
theorem Keeps.of_version {r r' : WatchRuntime} (hr : x.runtime = some r) (hversion : r'.version = r.version) :
    x.Keeps { x with runtime := some r', runtimeTtl := none } := by
  obtain ⟨hrevision, hcadence⟩ := Prod.mk.inj hversion
  refine ⟨fun h => h, fun r₁ hr₁ => ?_, fun _ _ => rfl, fun n' hn' => .inl ⟨n', hn', le_refl _⟩,
    fun _ h => h, fun _ h => h, fun _ _ => by rw [hr]; exact congrArg some hversion⟩
  obtain rfl := Option.some.inj hr₁
  exact .inl ⟨r, hr, le_of_eq hrevision.symm, le_of_eq hcadence.symm, fun _ => hcadence.symm⟩

/-- A terminal document may take the place of an active one, with a sidecar of a higher revision in the
place of the present one, or none. -/
theorem Keeps.of_ending {w : Watch} (hw : w.status ≠ .active) {reading : Option WatchRuntime}
    (hruntime : ∀ r r', x.runtime = some r → reading = some r' →
      r.revision < r'.revision ∧ r.cadenceSequence ≤ r'.cadenceSequence)
    (watchTtl runtimeTtl : Option ℤ) :
    x.Keeps ⟨some w, x.runtime.bind fun _ => reading, x.fence, none, watchTtl, runtimeTtl⟩ := by
  have hgone : ∀ {p : Prop},
      Live ⟨some w, x.runtime.bind fun _ => reading, x.fence, none, watchTtl, runtimeTtl⟩ → p := by
    rintro p ⟨w', hw', hactive⟩
    obtain rfl := Option.some.inj hw'
    exact absurd hactive hw
  refine ⟨hgone, fun r' hr' => ?_, hgone, fun n' hn' => .inl ⟨n', hn', le_refl _⟩, hgone, hgone, hgone⟩
  obtain ⟨r, hr, hreading⟩ := Option.bind_eq_some_iff.mp hr'
  obtain ⟨hrevision, hcadence⟩ := hruntime r r' hr hreading
  exact .inl ⟨r, hr, le_of_lt hrevision, hcadence, fun heq => absurd heq (Nat.ne_of_lt hrevision)⟩

/-- An active watch moves on to its next window, one revision above. -/
theorem Keeps.of_successor {w : Watch} {r r' : WatchRuntime} (hlive : x.Live) (hr : x.runtime = some r)
    (hrevision : r.revision < r'.revision) (hcadence : r.cadenceSequence ≤ r'.cadenceSequence) (ms : ℤ) :
    x.Keeps ⟨some w, some r', x.fence, some ms, none, none⟩ := by
  refine ⟨fun _ => hlive, fun r₁ hr₁ => ?_, fun _ _ => rfl, fun n' hn' => .inl ⟨n', hn', le_refl _⟩,
    fun _ h => h, fun _ _ => rfl, fun _ hscore => by contradiction⟩
  obtain rfl := Option.some.inj hr₁
  exact .inl ⟨r, hr, le_of_lt hrevision, hcadence, fun heq => absurd heq (Nat.ne_of_lt hrevision)⟩

/-- A repair from a reading that fits keeps the version of the sidecar. -/
theorem Keeps.of_repair {reading : Option WatchRuntime} {repaired : WatchRuntime}
    (hversion : ∀ r, reading = some r → repaired.version = r.version) (hfits : x.Fits reading)
    (hlive : x.Live) (hscore : x.score = none) (ms : ℤ) (ttl : Option ℤ) :
    x.Keeps ⟨x.watch, some repaired, some (x.fence.getD 0), some ms, ttl, none⟩ := by
  obtain ⟨hnone, hsome⟩ := hfits hlive
  refine ⟨fun _ => hlive, fun r₁ hr₁ => ?_, fun _ _ => rfl, fun n' hn' => ?_, fun _ _ => rfl,
    fun _ _ => rfl, fun _ hscore => by contradiction⟩
  · obtain rfl := Option.some.inj hr₁
    cases hr : x.runtime with
    | none => exact .inr ⟨rfl, hlive⟩
    | some r =>
      -- Nothing was committed since the reading: it has the stored version.
      obtain ⟨r₀, hr₀, hr₀v⟩ := Option.map_eq_some_iff.mp ((hsome r hr).2 hscore)
      obtain ⟨hrevision, hcadence⟩ := Prod.mk.inj ((hversion r₀ hr₀).trans hr₀v)
      exact .inl ⟨r, rfl, le_of_eq hrevision.symm, le_of_eq hcadence.symm, fun _ => hcadence.symm⟩
  · obtain rfl := Option.some.inj hn'
    cases hfence : x.fence with
    | none => exact .inr ⟨rfl, hlive⟩
    | some n => exact .inl ⟨n, rfl, le_refl _⟩

end WatchView

/-! ## What the methods do -/

/-- The database that the passes find: a document is stored under its own id, an active one and its
sidecar have no time to live, and of a new id there is nothing. -/
structure Redis.Sound (db : Redis) (used : List String) : Prop where
  own : ∀ u w, (db.view u).watch = some w → w.watchId = u
  untimed : ∀ u, (db.view u).Live → (db.view u).watchTtl = none ∧ (db.view u).runtimeTtl = none
  vacant : ∀ u, u ∉ used → (db.view u).watch = none ∧ (db.view u).runtime = none ∧ (db.view u).fence = none
  members : ∀ u ∈ db.active, u ∈ used

namespace Redis

/-- What a step leaves of the watches in use. -/
structure Evolves (db : Redis) (used : List String) (db' : Redis) : Prop where
  sound : db'.Sound used
  keeps : ∀ u ∈ used, (db.view u).Keeps (db'.view u)

variable {db db' : Redis} {used : List String}

/-- A step that changes no view. -/
theorem Sound.evolves_same (h : db.Sound used) (hview : db'.view = db.view)
    (hactive : db'.active ⊆ db.active) : db.Evolves used db' := by
  refine ⟨⟨?_, ?_, ?_, fun u hu => h.members u (hactive hu)⟩, fun u _ => ?_⟩
  · rw [hview]
    exact h.own
  · rw [hview]
    exact h.untimed
  · rw [hview]
    exact h.vacant
  · rw [hview]
    exact .refl _

theorem Sound.evolves_refl (h : db.Sound used) : db.Evolves used db :=
  h.evolves_same rfl (List.Subset.refl _)

/-- A step that changes the view of one watch in use. -/
theorem Sound.evolves_update (h : db.Sound used) {u : String} (hu : u ∈ used) {x : WatchView}
    (hview : db'.view = update db.view u x) (hactive : db'.active ⊆ db.active)
    (hkeeps : (db.view u).Keeps x) (hown : ∀ w, x.watch = some w → w.watchId = u)
    (htime : x.Live → x.watchTtl = none ∧ x.runtimeTtl = none) : db.Evolves used db' := by
  refine ⟨⟨fun v => ?_, fun v => ?_, fun v hv => ?_, fun v hv => h.members v (hactive hv)⟩, fun v _ => ?_⟩
  all_goals
    rw [hview]
    by_cases heq : v = u
  · subst heq
    simpa using hown
  · simpa [Function.update_of_ne heq] using h.own v
  · subst heq
    simpa using htime
  · simpa [Function.update_of_ne heq] using h.untimed v
  · exact absurd (heq ▸ hu) hv
  · simpa [Function.update_of_ne heq] using h.vacant v hv
  · subst heq
    simpa using hkeeps
  · simpa [Function.update_of_ne heq] using WatchView.Keeps.refl (db.view v)

theorem Sound.mem_used (h : db.Sound used) {u : String} (hu : (db.view u).watch ≠ none) : u ∈ used := by
  by_contra hno
  exact hu (h.vacant u hno).1

theorem Sound.mem_of_live (h : db.Sound used) {u : String} (hlive : (db.view u).Live) : u ∈ used := by
  obtain ⟨w, hw, -⟩ := hlive
  exact h.mem_used (by simp [hw])

/-- A creation takes a new id. -/
theorem Sound.create (h : db.Sound used) {w : Watch} (r : WatchRuntime) (hnew : w.watchId ∉ used) :
    (db.create w r).2.Sound (w.watchId :: used) ∧
      ∀ u ∈ used, (db.view u).Keeps ((db.create w r).2.view u) := by
  rcases view_create db w r with ⟨-, score, hview⟩ | hdb
  · have hother : ∀ v, v ≠ w.watchId → (db.create w r).2.view v = db.view v := by
      intro v hv
      rw [hview, Function.update_of_ne hv]
    refine ⟨⟨fun v w' hw' => ?_, fun v hlive => ?_, fun v hv => ?_, fun v hv => ?_⟩, fun u hu => ?_⟩
    · by_cases hv : v = w.watchId
      · subst hv
        rw [hview, Function.update_self] at hw'
        rw [← Option.some.inj hw']
      · rw [hother v hv] at hw'
        exact h.own v w' hw'
    · by_cases hv : v = w.watchId
      · subst hv
        rw [hview, Function.update_self]
        exact ⟨rfl, rfl⟩
      · rw [hother v hv] at hlive ⊢
        exact h.untimed v hlive
    · obtain ⟨hne, hv⟩ := not_or.mp (mt List.mem_cons.mpr hv)
      rw [hother v hne]
      exact h.vacant v hv
    · rcases active_create db w r hv with rfl | hv
      · exact List.mem_cons_self
      · exact List.mem_cons_of_mem _ (h.members v hv)
    · rw [hother u (fun heq => hnew (heq ▸ hu))]
      exact .refl _
  · rw [hdb]
    exact ⟨⟨h.own, h.untimed, fun v hv => h.vacant v fun hu => hv (List.mem_cons_of_mem _ hu),
      fun v hv => List.mem_cons_of_mem _ (h.members v hv)⟩, fun u _ => .refl _⟩

theorem Sound.claimWindow (h : db.Sound used) (now : Time) (u windowId ownerId : String)
    (lease : Duration) (ignoreSchedule : Bool) :
    db.Evolves used (db.claimWindow now u windowId ownerId lease ignoreSchedule).2 := by
  have hsubset : (db.claimWindow now u windowId ownerId lease ignoreSchedule).2.active ⊆ db.active := by
    rw [active_claimWindow]
    exact List.Subset.refl _
  obtain ⟨-, hview | ⟨hlive, hview⟩⟩ :=
    db.view_claimScript u windowId ownerId (leaseMs lease) (toMs now) ignoreSchedule
  · exact h.evolves_same hview hsubset
  · exact h.evolves_update (h.mem_of_live hlive) hview hsubset (.of_fence hlive (Nat.le_succ _))
      (h.own u) (h.untimed u)

/-- A claim that fits stores its snapshot again. -/
theorem Sound.beginBooking (h : db.Sound used) (now : Time) {c : WindowClaim}
    (hfits : (db.view c.watch.watchId).Fits (some c.runtime)) :
    db.Evolves used (db.beginBooking now c).2 := by
  rcases view_beginBooking db now c with ⟨w, r, hw, hactive, hr, hrevision, hview⟩ | hdb
  · have hlive : (db.view c.watch.watchId).Live := ⟨w, hw, hactive⟩
    have hcadence := (((hfits hlive).2 r hr).1 _ rfl).2 hrevision.symm
    have hsubset : (db.beginBooking now c).2.active ⊆ db.active := by
      rw [active_beginBooking]
      exact List.Subset.refl _
    refine h.evolves_update (h.mem_of_live hlive) hview hsubset (.of_version hr ?_) (h.own _)
      fun _ => ⟨(h.untimed _ hlive).1, rfl⟩
    exact Prod.ext hrevision.symm hcadence
  · rw [hdb]
    exact h.evolves_refl

/-- A commit that the service builds from a claim that fits. -/
theorem Sound.commitWindow (h : db.Sound used) {retention : Duration} (hret : 0 ≤ retention) (now : Time)
    {svc : WatchService} {c : WindowClaim} {plan : Plan} (hbuilt : Built svc c plan)
    (hactive : c.watch.status = .active) (hfits : (db.view c.watch.watchId).Fits (some c.runtime)) :
    db.Evolves used (db.commitWindow retention now c plan.watch plan.runtime).2 := by
  have hsubset := active_commitWindow db retention now c plan.watch plan.runtime
  rcases view_commitWindow db hret now c plan.watch plan.runtime with
    ⟨w, r, watchTtl, runtimeTtl, hw, hlive, hr, hrevision, htime, -, hview⟩ | ⟨-, hdb⟩
  · have hlive : (db.view c.watch.watchId).Live := ⟨w, hw, hlive⟩
    have hcadence := (((hfits hlive).2 r hr).1 _ rfl).2 hrevision.symm
    have hown : ∀ w', some plan.watch = some w' → w'.watchId = c.watch.watchId := by
      rintro w' ⟨⟩
      exact hbuilt.watchId
    rcases hbuilt.cases with hs | hf
    · -- the next window: the document is active and its marker is there
      obtain ⟨due, outages, -, hruntime⟩ := hs.scheduled
      have hstatus : plan.watch.status = .active := hs.status.trans hactive
      have hscore : scheduledMs (storedRuntime retention now c plan.watch plan.runtime) =
          some (toMs due) := by
        simp [scheduledMs, storedRuntime, hruntime, successorRuntime]
      rw [if_pos hstatus, hscore, (htime hstatus).1, (htime hstatus).2] at hview
      refine h.evolves_update (h.mem_of_live hlive) hview hsubset (.of_successor hlive hr ?_ ?_ _) hown
        fun _ => ⟨rfl, rfl⟩
      · simp [storedRuntime, hrevision]
      · simp [storedRuntime, hruntime, successorRuntime, hcadence]
    · rw [if_neg hf.status] at hview
      have hending : (some (storedRuntime retention now c plan.watch plan.runtime)) =
          (db.view c.watch.watchId).runtime.bind fun _ =>
            some (storedRuntime retention now c plan.watch plan.runtime) := by
        rw [hr]
        rfl
      rw [hending] at hview
      refine h.evolves_update (h.mem_of_live hlive) hview hsubset (.of_ending hf.status ?_ _ _) hown ?_
      · rintro r₁ r₂ hr₁ ⟨⟩
        obtain rfl := Option.some.inj (hr.symm.trans hr₁)
        simp [storedRuntime, hf.runtime, terminalRuntime, hrevision, hcadence]
      · rintro ⟨w', ⟨⟩, hactive'⟩
        exact absurd hactive' hf.status
  · rw [hdb]
    exact h.evolves_refl

/-- The revision that a fitting reading expects is the stored one where the compare lets it pass. -/
theorem version_of_not_overtaken {u : String} {reading r : WatchRuntime}
    (hfits : (db.view u).Fits (some reading)) (hlive : (db.view u).Live) (hr : (db.view u).runtime = some r)
    (hover : db.overtaken u (casRevision (some reading)) = false) : reading.version = r.version := by
  have hrevision : r.revision = reading.revision := revision_eq_of_not_overtaken hr hover
  exact Prod.ext hrevision.symm ((((hfits hlive).2 r hr).1 _ rfl).2 hrevision.symm)

/-- An ending from a reading that fits. -/
theorem Sound.finish (h : db.Sound used) {u : String} {reading : Option WatchRuntime}
    (hfits : (db.view u).Fits reading) (hlive : (db.view u).Live)
    (hover : db.overtaken u (casRevision reading) = false) {nw : Watch} (hended : nw.status ≠ .active)
    (hid : nw.watchId = u) {deadline : Time} {watchTtl runtimeTtl : Option ℤ}
    (hview : db'.view = update db.view u ⟨some nw, (db.view u).runtime.bind fun _ =>
      reading.map (·.finished deadline), (db.view u).fence, none, watchTtl, runtimeTtl⟩)
    (hactive : db'.active ⊆ db.active) : db.Evolves used db' := by
  refine h.evolves_update (h.mem_of_live hlive) hview hactive (.of_ending hended ?_ _ _) ?_ ?_
  · intro r r' hr hr'
    obtain ⟨r₀, rfl, rfl⟩ := Option.map_eq_some_iff.mp hr'
    obtain ⟨hrevision, hcadence⟩ := Prod.mk.inj (version_of_not_overtaken hfits hlive hr hover)
    constructor
    · simp only [WatchRuntime.finished]
      omega
    · exact le_of_eq hcadence.symm
  · rintro w ⟨⟩
    exact hid
  · rintro ⟨w, ⟨⟩, hactive⟩
    exact absurd hactive hended

/-- A cancellation from a reading that fits. -/
theorem Sound.cancelScript (h : db.Sound used) {retention : Duration} (hret : 0 ≤ retention) {u : String}
    {watch : Watch} {reading : Option WatchRuntime} (moment : Time)
    (hfits : (db.view u).Fits reading) (hid : watch.watchId = u) :
    db.Evolves used
      (db.cancelScript u (casRevision reading) (cancelMode retention moment watch reading)).2 := by
  have hsubset := active_cancelScript db u (casRevision reading) (cancelMode retention moment watch reading)
  rcases view_cancelScript db u (casRevision reading) (cancelMode retention moment watch reading) with
    hview | ⟨w, hw, hactive, hover, hmode⟩
  · exact h.evolves_same hview hsubset
  · have hlive : (db.view u).Live := ⟨w, hw, hactive⟩
    rcases hmode with ⟨r, stored, hmode, hstored, hview⟩ | ⟨nw, nr, ms, ttl, hmode, hview⟩
    · unfold cancelMode at hmode
      split at hmode
      next read hread =>
        obtain ⟨rfl, -⟩ := Option.filter_eq_some_iff.mp hread
        obtain rfl := CancelMode.pending.inj hmode
        have hversion := version_of_not_overtaken hfits hlive hstored hover
        exact h.evolves_update (h.mem_of_live hlive) hview hsubset (.of_version hstored hversion) (h.own u)
          fun _ => ⟨(h.untimed u hlive).1, rfl⟩
      next => contradiction
    · unfold cancelMode at hmode
      split at hmode
      next => contradiction
      next =>
        obtain ⟨rfl, rfl, -, rfl⟩ := CancelMode.cancel.inj hmode
        obtain ⟨watchTtl, runtimeTtl, hview⟩ := hview (terminalDeadlines_pos hret moment)
        refine h.finish hfits hlive hover ?_ ?_ hview hsubset
        · simp [Watch.ended]
        · exact hid

/-- An expiry from a reading that fits. -/
theorem Sound.expireScript (h : db.Sound used) {retention : Duration} (hret : 0 ≤ retention) {u : String}
    {watch : Watch} {reading : Option WatchRuntime} {moment : Time} {expected : Option ℕ} {force : Bool}
    {request : ExpireRequest}
    (hrequest : expireRequest retention moment u expected force watch reading = .inr request)
    (hfits : (db.view u).Fits reading) (hid : watch.watchId = u) :
    db.Evolves used (db.expireScript u (casRevision reading) request.newWatch request.newRuntime
      request.eventId request.terminalDeleteMs request.retentionTtlMs).2 := by
  have hsubset := active_expireScript db u (casRevision reading) request.newWatch request.newRuntime
    request.eventId request.terminalDeleteMs request.retentionTtlMs
  obtain ⟨hnw, hnr, httl⟩ := expireRequest_inr hrequest
  rcases view_expireScript db u (casRevision reading) request.newWatch request.newRuntime
    request.eventId request.terminalDeleteMs request.retentionTtlMs with
    ⟨-, hdb⟩ | ⟨w, hw, hactive, hover, hview⟩
  · rw [hdb]
    exact h.evolves_refl
  · obtain ⟨watchTtl, runtimeTtl, hview⟩ := hview (httl ▸ terminalDeadlines_pos hret moment)
    rw [hnr] at hview hsubset ⊢
    refine h.finish hfits ⟨w, hw, hactive⟩ hover ?_ ?_ hview hsubset
    · simp [hnw, Watch.ended]
    · simp [hnw, Watch.ended, hid]

/-- A repair from a reading that fits. -/
theorem Sound.synthesizeMarker (h : db.Sound used) (now : Time) {u : String} {repaired : WatchRuntime}
    {reading : Option WatchRuntime} (hversion : ∀ r, reading = some r → repaired.version = r.version)
    (hfits : (db.view u).Fits reading) : db.Evolves used (db.synthesizeMarker now u repaired).2 := by
  rcases view_synthesizeMarker db now u repaired with hdb | ⟨w, ms, hw, hactive, hscore, hview⟩
  · rw [hdb]
    exact h.evolves_refl
  · have hlive : (db.view u).Live := ⟨w, hw, hactive⟩
    have hsubset : (db.synthesizeMarker now u repaired).2.active ⊆ db.active := by
      rw [active_synthesizeMarker]
      exact List.Subset.refl _
    rw [← hw] at hview
    exact h.evolves_update (h.mem_of_live hlive) hview hsubset
      (.of_repair hversion hfits hlive hscore ms _) (h.own u) fun _ => ⟨(h.untimed u hlive).1, rfl⟩

/-- What is pruned is not active. -/
theorem Sound.pruneIndexMember (h : db.Sound used) {u : String} (hu : u ∈ used)
    (hgone : ¬ (db.view u).Live) (fromAll : Bool) : db.Evolves used (db.pruneIndexMember u fromAll) := by
  have hsubset := active_pruneIndexMember db u fromAll
  have hview := view_pruneIndexMember db u fromAll
  cases fromAll with
  | false => exact h.evolves_same hview hsubset
  | true =>
    exact h.evolves_update hu hview hsubset (.of_removal hgone (.inl rfl) (.inr rfl) (.inr rfl)) (h.own u)
      fun hlive => absurd hlive hgone

/-- A key with a time to live is not one of an active watch. -/
theorem Sound.del (h : db.Sound used) {k : RedisKey} (htimed : db.ttl.get? k ≠ none) :
    db.Evolves used (db.del k) := by
  have hgone : ∀ v, k = .watch v ∨ k = .runtime v → ¬ (db.view v).Live := by
    rintro v (rfl | rfl) hlive
    · exact htimed (h.untimed v hlive).1
    · exact htimed (h.untimed v hlive).2
  refine ⟨⟨fun v w hw => ?_, fun v hlive => ?_, fun v hv => ?_, fun v hv => ?_⟩, fun v _ => ?_⟩
  · rcases view_del db k v with hview | ⟨-, hview⟩ | ⟨-, hview⟩ <;> rw [hview] at hw
    · exact h.own v w hw
    · contradiction
    · exact h.own v w hw
  · rcases view_del db k v with hview | ⟨-, hview⟩ | ⟨hk, hview⟩ <;> rw [hview] at hlive ⊢
    · exact h.untimed v hlive
    · obtain ⟨w, hw, -⟩ := hlive
      contradiction
    · exact absurd hlive (hgone v (.inr hk))
  · obtain ⟨hwatch, hruntime, hfence⟩ := h.vacant v hv
    rcases view_del db k v with hview | ⟨-, hview⟩ | ⟨-, hview⟩ <;> rw [hview]
    · exact ⟨hwatch, hruntime, hfence⟩
    · exact ⟨rfl, hruntime, hfence⟩
    · exact ⟨hwatch, rfl, hfence⟩
  · rw [active_del] at hv
    exact h.members v hv
  · rcases view_del db k v with hview | ⟨hk, hview⟩ | ⟨hk, hview⟩ <;> rw [hview]
    · exact .refl _
    · exact .of_removal (hgone v (.inl hk)) (.inr rfl) (.inl rfl) (.inl rfl)
    · exact .of_removal (hgone v (.inr hk)) (.inl rfl) (.inr rfl) (.inl rfl)

theorem Sound.elapse (h : db.Sound used) (ms : ℤ) : db.Evolves used (db.elapse ms) := by
  refine ⟨⟨h.own, fun v hlive => ?_, h.vacant, h.members⟩, fun v _ => ?_⟩
  · obtain ⟨hwatch, hruntime⟩ := h.untimed v hlive
    constructor
    · change (db.ttl.map (· - ms)).get? (.watch v) = none
      rw [Dict.get?_map]
      exact Option.map_eq_none_iff.mpr hwatch
    · change (db.ttl.map (· - ms)).get? (.runtime v) = none
      rw [Dict.get?_map]
      exact Option.map_eq_none_iff.mpr hruntime
  · -- only the times to live differ
    have hkeeps := WatchView.Keeps.refl (db.view v)
    exact ⟨hkeeps.live, hkeeps.runtime, hkeeps.sidecar, hkeeps.fence, hkeeps.fenced, hkeeps.marked,
      hkeeps.version⟩

end Redis

/-! ## The calls in flight -/

/-- What a cancellation or an expiry in flight has read: a document under its own id, and a sidecar that
fits. -/
def Client.Grounded (retention : Duration) (db : Redis) (used : List String) : Client → Prop
  | .idle | .answered _ | .cancelStart _ _ | .expireStart _ _ _ => True
  | .cancelRead u _ watch | .expireRead u _ _ watch => u ∈ used ∧ watch.watchId = u
  | .cancelSend u _ watch runtime _ _ =>
    u ∈ used ∧ watch.watchId = u ∧ (db.view u).Fits runtime
  | .expireSend u watch runtime request _ =>
    u ∈ used ∧ watch.watchId = u ∧ (db.view u).Fits runtime ∧
      ∃ moment expected force, expireRequest retention moment u expected force watch runtime = .inr request

theorem Client.Grounded.keeps {retention : Duration} {db db' : Redis} {used used' : List String}
    {client : Client} (h : client.Grounded retention db used) (hused : used ⊆ used')
    (hk : ∀ u ∈ used, (db.view u).Keeps (db'.view u)) : client.Grounded retention db' used' := by
  cases client with
  | idle | answered | cancelStart | expireStart => trivial
  | cancelRead | expireRead => exact ⟨hused h.1, h.2⟩
  | cancelSend => exact ⟨hused h.1, h.2.1, h.2.2.keeps (hk _ h.1)⟩
  | expireSend => exact ⟨hused h.1, h.2.1, h.2.2.1.keeps (hk _ h.1), h.2.2.2⟩

/-- One store call of a grounded client. -/
theorem Client.Grounded.step {retention : Duration} (hret : 0 ≤ retention) {db : Redis}
    {used : List String} (hsound : db.Sound used) {client : Client}
    (h : client.Grounded retention db used) (now : Time) :
    db.Evolves used (client.step retention now db).db ∧
      (client.step retention now db).client.Grounded retention (client.step retention now db).db used := by
  cases client with
  | idle | answered => exact ⟨hsound.evolves_refl, trivial⟩
  | cancelStart u attempts =>
    simp only [Client.step]
    split
    next => exact ⟨hsound.evolves_refl, trivial⟩
    next w hw =>
      have hread : db.watches.get? u = some w ∧ w.watchId = u := by
        simpa [Redis.get, Option.filter_eq_some_iff] using hw
      split
      next => exact ⟨hsound.evolves_refl, trivial⟩
      next => exact ⟨hsound.evolves_refl, hsound.mem_used (by simp [Redis.view, hread.1]), hread.2⟩
  | expireStart u expected force =>
    simp only [Client.step]
    split
    next => exact ⟨hsound.evolves_refl, trivial⟩
    next w hw =>
      have hread : db.watches.get? u = some w ∧ w.watchId = u := by
        simpa [Redis.get, Option.filter_eq_some_iff] using hw
      split
      next => exact ⟨hsound.evolves_refl, trivial⟩
      next => exact ⟨hsound.evolves_refl, hsound.mem_used (by simp [Redis.view, hread.1]), hread.2⟩
  | cancelRead u attempts watch =>
    exact ⟨hsound.evolves_refl, h.1, h.2, WatchView.fits_runtime (db.view u)⟩
  | expireRead u expected force watch =>
    simp only [Client.step]
    split
    next => exact ⟨hsound.evolves_refl, trivial⟩
    next request hrequest =>
      exact ⟨hsound.evolves_refl, h.1, h.2, WatchView.fits_runtime (db.view u), now, expected, force,
        hrequest⟩
  | cancelSend u attempts watch runtime moment current =>
    obtain ⟨-, hid, hfits⟩ := h
    refine ⟨hsound.cancelScript hret moment hfits hid, ?_⟩
    simp only [Client.step, cancelNext]
    split <;> trivial
  | expireSend u watch runtime request current =>
    obtain ⟨-, hid, hfits, moment, expected, force, hrequest⟩ := h
    exact ⟨hsound.expireScript hret hrequest hfits hid, trivial⟩

/-- The watch whose expiry `WatchService.expire` announces: the notification is gated on the event id. -/
def TransitionResult.announces : TransitionResult → Option String
  | .applied watch (some _) _ => some watch.watchId
  | _ => none

/-- The watch that a script run has expired. -/
def ScriptRun.expires (run : ScriptRun) : Option String :=
  match run.isCancel, run.reply with
  | false, .applied _ => some run.watchId
  | _, _ => none

/-- The watch that a commit has expired. -/
def CommitResult.expires : CommitResult → Option String
  | .committed watch _ => if watch.status = .expired then some watch.watchId else none
  | _ => none

/-- The watch whose expiry `_commit_terminal` announces: the notification is gated on the event id. -/
def CommitResult.announces : CommitResult → Option String
  | .committed watch (some _) => if watch.status = .expired then some watch.watchId else none
  | _ => none

/-- A client that expires a watch finds it active and leaves it finished. -/
theorem Client.Grounded.expires {retention : Duration} (hret : 0 ≤ retention) {db : Redis}
    {used : List String} {client : Client} (h : client.Grounded retention db used) (now : Time) {u : String}
    (hu : (client.step retention now db).run.bind ScriptRun.expires = some u) :
    u ∈ used ∧ (db.view u).Live ∧ ¬ ((client.step retention now db).db.view u).Live := by
  cases client with
  | idle | answered => contradiction
  | cancelStart | expireStart | expireRead =>
    simp only [Client.step] at hu
    repeat' split at hu
    all_goals contradiction
  | cancelRead | cancelSend => contradiction
  | expireSend v watch runtime request current =>
    obtain ⟨hused, -, -, moment, expected, force, hrequest⟩ := h
    obtain ⟨hnw, -, httl⟩ := expireRequest_inr hrequest
    have happlied : v = u ∧ ∃ w, (db.expireScript v (casRevision runtime) request.newWatch
        request.newRuntime request.eventId request.terminalDeleteMs request.retentionTtlMs).1 =
        .applied w := by
      simp only [Client.step, Option.bind_some, ScriptRun.expires] at hu
      split at hu
      next w _ hreply => exact ⟨Option.some.inj hu, w, hreply⟩
      next => contradiction
    obtain ⟨rfl, w, hreply⟩ := happlied
    rcases Redis.view_expireScript db v (casRevision runtime) request.newWatch request.newRuntime
      request.eventId request.terminalDeleteMs request.retentionTtlMs with
      ⟨hno, -⟩ | ⟨w', hw', hactive, -, hview⟩
    · exact absurd hreply (hno w)
    · obtain ⟨watchTtl, runtimeTtl, hview⟩ := hview (httl ▸ Redis.terminalDeadlines_pos hret moment)
      refine ⟨hused, ⟨w', hw', hactive⟩, ?_⟩
      rintro ⟨w'', hw'', hactive''⟩
      change (Redis.view (db.expireScript v (casRevision runtime) request.newWatch request.newRuntime
        request.eventId request.terminalDeleteMs request.retentionTtlMs).2 v).watch = some w'' at hw''
      rw [hview, Function.update_self] at hw''
      obtain rfl := Option.some.inj hw''
      simp [hnw, Watch.ended] at hactive''

/-- A client announces the expiry of a watch only when it has just expired it. -/
theorem Client.Grounded.announces {retention : Duration} {db : Redis} {used : List String}
    {client : Client} (h : client.Grounded retention db used) (now : Time) {u : String}
    (hu : ((client.step retention now db).run.bind ScriptRun.answer).bind TransitionResult.announces =
      some u) :
    (client.step retention now db).run.bind ScriptRun.expires = some u := by
  cases client with
  | idle | answered => contradiction
  | cancelStart | expireStart | expireRead =>
    simp only [Client.step] at hu
    repeat' split at hu
    all_goals contradiction
  | cancelRead => contradiction
  | cancelSend v attempts watch runtime moment current =>
    -- a cancellation answers without an event id
    simp only [Client.step, Option.bind_some] at hu
    obtain ⟨result, hresult, hannounces⟩ := Option.bind_eq_some_iff.mp hu
    unfold cancelNext at hresult
    split at hresult
    next answer _ hanswer =>
      obtain rfl := Option.some.inj hresult
      unfold cancelAnswer at hanswer
      split at hanswer
      all_goals try contradiction
      all_goals
        obtain rfl := Option.some.inj hanswer
        contradiction
    next =>
      obtain rfl := Option.some.inj hresult
      contradiction
    next => contradiction
  | expireSend v watch runtime request current =>
    obtain ⟨-, hid, -, moment, expected, force, hrequest⟩ := h
    obtain ⟨hnw, -, -⟩ := expireRequest_inr hrequest
    simp only [Client.step, Option.bind_some] at hu ⊢
    rcases db.expireScript_cases v (casRevision runtime) request.newWatch request.newRuntime
      request.eventId request.terminalDeleteMs request.retentionTtlMs with
      ⟨w, -, -, -, hreply, -⟩ | ⟨hno, -⟩
    · rw [hreply] at hu ⊢
      unfold expireAnswer TransitionResult.announces at hu
      split at hu
      next w' _ _ hresult =>
        obtain ⟨rfl, -, -⟩ := TransitionResult.applied.inj hresult
        rw [← hu]
        simp [ScriptRun.expires, hnw, Watch.ended, hid]
      next => contradiction
    · unfold expireAnswer TransitionResult.announces at hu
      split at hu
      next hresult =>
        split at hresult
        next w hreply => exact absurd hreply (hno w)
        all_goals contradiction
      next => contradiction

/-- A commit that expires a watch finds it active and leaves it finished. -/
theorem expires_commit {db : Redis} {retention : Duration} (hret : 0 ≤ retention) {now : Time}
    {claim : WindowClaim} {plan : Plan} (hid : plan.watch.watchId = claim.watch.watchId) {u : String}
    (hu : (db.commitWindow retention now claim plan.watch plan.runtime).1.bind CommitResult.expires =
      some u) :
    (db.view u).Live ∧ ¬ ((db.commitWindow retention now claim plan.watch plan.runtime).2.view u).Live := by
  obtain ⟨result, hresult, hexpires⟩ := Option.bind_eq_some_iff.mp hu
  unfold CommitResult.expires at hexpires
  split at hexpires
  next w eventId =>
    rcases db.view_commitWindow hret now claim plan.watch plan.runtime with
      ⟨w₀, r, watchTtl, runtimeTtl, hw, hactive, -, -, -, hreply, hview⟩ | ⟨hno, -⟩
    · obtain rfl := hreply w eventId hresult
      split_ifs at hexpires with hstatus
      obtain rfl := Option.some.inj hexpires
      rw [hid, hview, Function.update_self]
      refine ⟨⟨w₀, hw, hactive⟩, ?_⟩
      rintro ⟨w', ⟨⟩, hactive'⟩
      rw [hstatus] at hactive'
      contradiction
    · exact absurd hresult (hno w eventId)
  next => contradiction

/-- A commit announces only an expiry that it has made. -/
theorem expires_of_announces {result : Option CommitResult} {u : String}
    (h : result.bind CommitResult.announces = some u) : result.bind CommitResult.expires = some u := by
  obtain ⟨result, rfl, hannounces⟩ := Option.bind_eq_some_iff.mp h
  unfold CommitResult.announces at hannounces
  split at hannounces
  · exact hannounces
  · contradiction

namespace Redis

/-- Unless the document was read active, the watch is not active. -/
def Ended (db : Redis) (u : String) (watch : Option Watch) : Prop :=
  (∀ w, watch = some w → w.status ≠ .active) → ¬ (db.view u).Live

theorem Ended.keeps {db db' : Redis} {u : String} {watch : Option Watch} (h : db.Ended u watch)
    (hk : (db.view u).Keeps (db'.view u)) : db'.Ended u watch :=
  fun hread hlive => h hread (hk.live hlive)

theorem Sound.ended_get {db : Redis} {used : List String} (h : db.Sound used) (u : String) :
    db.Ended u (db.get u) := by
  rintro hread ⟨w, hw, hactive⟩
  refine hread w ?_ hactive
  exact Option.filter_eq_some_iff.mpr ⟨hw, by simpa using h.own u w hw⟩

end Redis

end Dibs
