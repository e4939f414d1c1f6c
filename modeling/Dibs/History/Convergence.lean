import Dibs.History.Table
import Dibs.Service.System

/-!
# The history projection converges

History records are written outside the fenced commit, so they reach the table in any order and some
of them more than once. What they are is fixed by the store: every creation, commit, cancellation and
expiry that is applied makes one record, of the document it stores and the revision it stores it under
(`Effect.transition`). Revisions increase along the life of a watch and only the last document is
terminal, so the record of the live document is newer than every other one (`Tracked`), and the upsert
keeps the newest (`Register.foldl_write_newest`).
-/

namespace Dibs

/-- The record that the service makes of a call: of a creation, a commit, a cancellation or an expiry that
was applied. -/
def Entry.transition (e : Entry) : Option HistoryRecord :=
  match e.op, e.reply with
  | .create _ _, .create (.created w _) => some ⟨w, 0⟩
  | .commit c _ _, .commit (.committed w _) => some ⟨w, c.runtime.revision + 1⟩
  | _, .transition (.applied w _ revision) => some ⟨w, revision⟩
  | _, _ => none

/-- What an effect means for the history of a watch: it creates the watch, or it replaces an active
document under the next revision, or it leaves the document and the revision alone and makes no
record. -/
inductive Effect.History (now : Time) (u : String) (r : Row) (op : Op) (reply : Reply) (r' : Row) : Prop
  | created {w : Watch} {rt : WatchRuntime} (hop : op = .create w rt) (hnone : r.watch = none)
      (hwatch : r'.watch = some w) (hruntime : r'.runtime = some rt) (hid : w.watchId = u)
      (hrevision : rt.revision = 0) (hrecord : Entry.transition ⟨now, op, reply⟩ = some ⟨w, 0⟩)
  | advanced {w₀ w : Watch} {rt₀ rt : WatchRuntime} (hwatch₀ : r.watch = some w₀)
      (hactive : w₀.status = .active) (hruntime₀ : r.runtime = some rt₀) (hwatch : r'.watch = some w)
      (hruntime : r'.runtime = some rt) (hid : w.watchId = u) (hrevision : rt.revision = rt₀.revision + 1)
      (hrecord : Entry.transition ⟨now, op, reply⟩ = some ⟨w, rt.revision⟩)
  | none (hwatch : r'.watch = r.watch)
      (hrevision : r'.runtime.map WatchRuntime.revision = r.runtime.map WatchRuntime.revision)
      (hrecord : Entry.transition ⟨now, op, reply⟩ = none)

/-- What every served call means for the history of its watch. -/
theorem Effect.history {d : Duration} {now : Time} {r r' : Row} {op : Op} {reply : Reply} {u : String}
    {n : ℕ} (hk : r.Keyed u n) (hco : r.Coherent u) (he : Effect d now r op reply r')
    (ht : op.target = u) (hserved : op.Served)
    (hcommit : ∀ c nw nr, op = .commit c nw nr → nw.watchId = c.watch.watchId) :
    Effect.History now u r op reply r' := by
  cases he with
  | create hnone =>
    obtain ⟨-, -, required, supports, phase, hrt⟩ := hserved
    exact .created rfl hnone rfl rfl ht (by rw [hrt]; rfl) rfl
  | claim | release | claimDispatch | markDispatched | releaseDispatch => exact .none rfl rfl rfl
  | begin _ hruntime | pend _ hruntime => exact .none rfl (by rw [hruntime]; rfl) rfl
  | reschedule hwatch hruntime hactive hrev | finish hwatch hruntime hactive hrev =>
    refine .advanced hwatch hactive hruntime rfl rfl ((hcommit _ _ _ rfl).trans ht) rfl ?_
    simp only [Entry.transition, hrev]
  | cancel hwatch hactive | expire hwatch hactive =>
    obtain ⟨rt, due, hs⟩ := hco.active _ hwatch hactive
    refine .advanced hwatch hactive hs.runtime rfl (by simp [Row.finish, hs.runtime]; rfl)
      ((Watch.ended_watchId ..).trans (hk.watchId _ hwatch)) rfl ?_
    simp [Entry.transition, hs.runtime, WatchRuntime.finished]
  | synthesize hwatch hactive hmarker =>
    obtain ⟨_, _, hs⟩ := hco.active _ hwatch hactive
    exact absurd (hmarker.symm.trans hs.marker) (by simp)

namespace Store

/-- The records that the calls so far make for a watch, newest first. -/
def transitions (s : Store) (u : String) : List HistoryRecord :=
  (s.log.filterMap Entry.transition).filter fun r => decide (r.watch.watchId = u)

theorem mem_transitions {s : Store} {u : String} {r : HistoryRecord} :
    r ∈ s.transitions u ↔ r ∈ s.log.filterMap Entry.transition ∧ r.watch.watchId = u := by
  simp [transitions]

/-- The record of the live document of a watch is there and newer than every other one of the watch,
which is of an active document. -/
structure Tracked (s : Store) (u : String) : Prop where
  /-- Only a created watch has records. -/
  created : ∀ r ∈ s.transitions u, u ∈ s.created
  /-- The live document has a record. -/
  live : ∀ w rt, (s.row u).watch = some w → (s.row u).runtime = some rt →
    ⟨w, rt.revision⟩ ∈ s.transitions u
  /-- Every other record is older. -/
  older : ∀ w rt, (s.row u).watch = some w → (s.row u).runtime = some rt → ∀ r ∈ s.transitions u,
    r = ⟨w, rt.revision⟩ ∨ (r.watch.status = .active ∧ r.revision < rt.revision)

/-- What a call with an effect means for the history of its watch. -/
theorem history_effect {s : Store} (hr : (storeMachine Served).Reach s) {op : Op} (ho : Served s op)
    {r : Row} (he : Effect s.mem.retention s.now (s.row op.target) op (s.reply op) r) :
    Effect.History s.now op.target (s.row op.target) op (s.reply op) r := by
  refine he.history (keyed (lawful_of_served hr) op.target).row (coherent hr op.target) rfl ho.2 ?_
  rintro c nw nr rfl
  exact ho.1.1.2

/-- A record is of the watch that its call is about, and the call was applied. -/
theorem transition_spec {s : Store} (hr : (storeMachine Served).Reach s) {op : Op} (ho : Served s op)
    {r : HistoryRecord} (h : Entry.transition ⟨s.now, op, s.reply op⟩ = some r) :
    r.watch.watchId = op.target ∧ (s.reply op).isApplied = true := by
  have happ : (s.reply op).isApplied = true := by
    unfold Entry.transition at h
    dsimp only at h
    generalize s.reply op = reply at h
    split at h <;> first | rfl | contradiction
  obtain ⟨row, -, he⟩ := effect_of_applied happ
  refine ⟨?_, happ⟩
  rcases history_effect hr ho he with
    ⟨-, -, -, -, hid, -, hrecord⟩ | ⟨-, -, -, -, -, hid, -, hrecord⟩ | ⟨-, -, hrecord⟩
  · obtain rfl := Option.some.inj (hrecord.symm.trans h)
    exact hid
  · obtain rfl := Option.some.inj (hrecord.symm.trans h)
    exact hid
  · exact absurd (hrecord.symm.trans h) (by simp)

/-- The records of a watch after a call. -/
theorem transitions_call (s : Store) (op : Op) (u : String) :
    (s.call op).transitions u =
      (((Entry.transition ⟨s.now, op, s.reply op⟩).toList.filter fun r => decide (r.watch.watchId = u))
        ++ s.transitions u) := by
  simp only [transitions, call_log, List.filterMap_cons]
  cases Entry.transition ⟨s.now, op, s.reply op⟩ with
  | none => rfl
  | some r => rw [← List.filter_append]; rfl

/-- A call without a record of a watch leaves its records alone. -/
theorem transitions_call_of_ne {s : Store} {op : Op} {u : String}
    (h : ∀ r, Entry.transition ⟨s.now, op, s.reply op⟩ = some r → r.watch.watchId ≠ u) :
    (s.call op).transitions u = s.transitions u := by
  rw [transitions_call]
  cases hrecord : Entry.transition ⟨s.now, op, s.reply op⟩ with
  | none => rfl
  | some r => simp [h r hrecord]

/-- A call with a record of a watch adds it. -/
theorem transitions_call_of_eq {s : Store} {op : Op} {u : String} {r : HistoryRecord}
    (h : Entry.transition ⟨s.now, op, s.reply op⟩ = some r) (hu : r.watch.watchId = u) :
    (s.call op).transitions u = r :: s.transitions u := by
  simp [transitions_call, h, hu]

/-- A call that makes no record keeps the records in step, when it keeps the document and the revision or
removes the watch. -/
theorem Tracked.of_same {s : Store} {op : Op} {u : String} (h : s.Tracked u)
    (hno : ∀ r, Entry.transition ⟨s.now, op, s.reply op⟩ = some r → r.watch.watchId ≠ u)
    (hsame : ∀ w rt, ((s.call op).row u).watch = some w → ((s.call op).row u).runtime = some rt →
      ∃ rt', (s.row u).watch = some w ∧ (s.row u).runtime = some rt' ∧ rt'.revision = rt.revision) :
    (s.call op).Tracked u := by
  have hcall := transitions_call_of_ne hno
  refine ⟨fun r hr => ?_, fun w rt hw hrt => ?_, fun w rt hw hrt r hr => ?_⟩
  · exact created_call op (h.created r (hcall ▸ hr))
  · obtain ⟨rt', hw', hrt', hrevision⟩ := hsame w rt hw hrt
    rw [hcall, ← hrevision]
    exact h.live w rt' hw' hrt'
  · obtain ⟨rt', hw', hrt', hrevision⟩ := hsame w rt hw hrt
    rw [← hrevision]
    exact h.older w rt' hw' hrt' r (hcall ▸ hr)

/-- A call keeps the records in step with the store. -/
theorem Tracked.call {s : Store} (hr : (storeMachine Served).Reach s) {op : Op} (ho : Served s op)
    {u : String} (h : s.Tracked u) : (s.call op).Tracked u := by
  have hkeyed : (s.call op).Keyed u :=
    keyed (lawful_of_served (hr.step (M := storeMachine Served) (.call op) ho)) u
  rcases s.row_call op u with ⟨ht, he⟩ | ⟨hrow, hrefused⟩ | ⟨⟨due, batchSize, rfl⟩, hclean⟩
  · subst ht
    rcases history_effect hr ho he with
      ⟨rfl, hnone, hwatch, hruntime, hid, hrevision, hrecord⟩ |
      ⟨hwatch₀, hactive, hruntime₀, hwatch, hruntime, hid, hrevision, hrecord⟩ |
      ⟨hwatch, hrevision, hrecord⟩
    · -- Nothing was recorded under a fresh id.
      rename_i w rt
      have hempty : s.transitions (Op.create w rt).target = [] :=
        List.eq_nil_iff_forall_not_mem.mpr fun r hr' => ho.1.2 hnone (h.created r hr')
      have hcall := transitions_call_of_eq hrecord hid
      rw [hempty] at hcall
      refine ⟨fun r _ => hkeyed.created (by simp [hwatch]), fun w' rt' hw hrt => ?_,
        fun w' rt' hw hrt r hr' => ?_⟩
      all_goals
        obtain rfl := Option.some.inj (hwatch.symm.trans hw)
        obtain rfl := Option.some.inj (hruntime.symm.trans hrt)
        rw [hcall] at *
      · simp [hrevision]
      · exact .inl (by simpa [hrevision] using hr')
    · -- The document that is replaced was active and of the revision before.
      have hcall := transitions_call_of_eq hrecord hid
      refine ⟨fun r _ => hkeyed.created (by simp [hwatch]), fun w' rt' hw hrt => ?_,
        fun w' rt' hw hrt r hr' => ?_⟩
      all_goals
        obtain rfl := Option.some.inj (hwatch.symm.trans hw)
        obtain rfl := Option.some.inj (hruntime.symm.trans hrt)
      · rw [hcall]
        exact List.mem_cons_self
      · rw [hcall] at hr'
        rcases List.mem_cons.mp hr' with rfl | hr'
        · exact .inl rfl
        · right
          rcases h.older _ _ hwatch₀ hruntime₀ r hr' with rfl | ⟨hopen, hlt⟩
          · exact ⟨hactive, by simp [hrevision]⟩
          · exact ⟨hopen, by omega⟩
    · refine h.of_same (fun r hr' => absurd (hrecord.symm.trans hr') (by simp)) fun w rt hw hrt => ?_
      rw [hwatch] at hw
      rw [hrt, Option.map_some] at hrevision
      obtain ⟨rt', hrt', heq⟩ := Option.map_eq_some_iff.mp hrevision.symm
      exact ⟨rt', hw, hrt', heq⟩
  · refine h.of_same (fun r hr' hu => ?_) fun w rt hw hrt => ⟨rt, hrow ▸ hw, hrow ▸ hrt, rfl⟩
    obtain ⟨htarget, happ⟩ := transition_spec hr ho hr'
    exact absurd happ (by simp [(hrefused (htarget.symm.trans hu)).1])
  · refine h.of_same (fun r hr' => absurd hr' (by simp [Entry.transition, reply, Memory.call]))
      fun w rt hw hrt => ?_
    rcases hclean with hrow | ⟨-, hrow⟩ | ⟨-, hrow⟩ <;> rw [hrow] at hw hrt
    · exact ⟨rt, hw, hrt, rfl⟩
    · simp [Row.vacant] at hw
    · exact ⟨rt, hw, hrt, rfl⟩

/-- In every reachable state the records are in step with the store. -/
theorem tracked {s : Store} (h : (storeMachine Served).Reach s) (u : String) : s.Tracked u := by
  refine h.invariant (P := fun s => s.Tracked u) ?_ ?_
  · rintro s ⟨retention, hmem, hlog⟩
    have hnone : s.transitions u = [] := by simp [transitions, hlog]
    have hrow : (s.row u).watch = none := by rw [row, hmem]; rfl
    exact ⟨by simp [hnone], by simp [hrow], by simp [hrow]⟩
  · intro s label hr ih ha
    cases label with
    | tick now => exact ⟨ih.created, ih.live, ih.older⟩
    | call op => exact ih.call hr ha

end Store

/-- A task is about to make a record because its last call was applied, or because it created a watch
that was there. -/
theorem Task.Step.record {svc : WatchService} {s : Store} {offset : ℚ} {task task' : Task}
    {input : Input} {reply : Option Reply} (h : Task.Step svc s offset task input reply task')
    {r : HistoryRecord} (hr : task'.record = some r) :
    ∃ op answer, task.op input = some op ∧ reply = some answer ∧
      (Entry.transition ⟨s.now, op, answer⟩ = some r ∨
        ∃ w rt stored rt', task = .creating w rt ∧ answer = .create (.alreadyExists stored rt')) := by
  cases h with
  | create hreply =>
    rcases hreply with ⟨rt, rfl⟩ | ⟨rt, rfl⟩
    · obtain rfl := Option.some.inj hr
      exact ⟨_, _, rfl, rfl, .inl rfl⟩
    · exact ⟨_, _, rfl, rfl, .inr ⟨_, _, _, _, rfl, rfl⟩⟩
  | cancelled | expired | rescheduled | committed =>
    obtain rfl := Option.some.inj hr
    exact ⟨_, _, rfl, rfl, .inl rfl⟩
  | _ => contradiction

namespace Sys

variable {svc : WatchService}

/-- Every record is made of a call that was applied. -/
structure RecordsApplied (s : Sys) : Prop where
  /-- The records that coroutines are about to make. -/
  tasks : ∀ i r, (s.tasks i).record = some r → r ∈ s.store.log.filterMap Entry.transition
  /-- The records that were made. -/
  records : ∀ r ∈ s.records, r ∈ s.store.log.filterMap Entry.transition

/-- A step makes records of applied calls only. -/
theorem RecordsApplied.exec {s : Sys} (hr : (sysMachine svc).Reach s) (h : s.RecordsApplied)
    {label : SysLabel} (ha : (sysMachine svc).allowed s label) :
    ((sysMachine svc).exec label s).RecordsApplied := by
  have hmono : ∀ r ∈ s.store.log.filterMap Entry.transition,
      r ∈ ((sysMachine svc).exec label s).store.log.filterMap Entry.transition :=
    fun r hr => List.filterMap_subset _ (log_exec s label) hr
  refine ⟨fun i r hrecord => ?_, fun r hrecord => ?_⟩
  · rcases tasks_exec ha i with ⟨htask, -⟩ | htask | ⟨hentry, -, -⟩ | ⟨input, offset, rfl, -, hstep⟩
    · rw [htask] at hrecord
      exact hmono r (h.tasks i r hrecord)
    · rw [htask] at hrecord
      contradiction
    · generalize ((sysMachine svc).exec label s).tasks i = task at hentry hrecord
      cases task <;> contradiction
    · obtain ⟨op, answer, hop, hanswer, hcase⟩ := hstep.record hrecord
      rw [hop, Option.map_some] at hanswer
      obtain rfl := Option.some.inj hanswer
      rcases hcase with htransition | ⟨w, rt, stored, rt', htask, hexists⟩
      · rw [show ((sysMachine svc).exec (.resume i input offset) s).store = s.store.call op from store_of_op hop]
        exact List.mem_filterMap.mpr ⟨_, List.mem_cons_self, htransition⟩
      · -- A created id is new, so the watch cannot be there.
        obtain ⟨-, -, hunused⟩ := ha
        rw [htask] at hunused hop
        obtain rfl := Option.some.inj hop
        have hkeyed := Store.keyed (Store.lawful_of_served (reach_store hr)) w.watchId
        have hnone : (s.store.row w.watchId).watch = none := by
          by_contra hne
          exact hunused (hkeyed.created hne)
        simp only [Store.reply, Memory.call, Prod.map_fst, Reply.create.injEq] at hexists
        rcases Memory.createWithSchedule_cases s.store.mem w rt with ⟨-, hcreated, -⟩ | ⟨⟨w', _, hw', -⟩, -⟩
        · exact absurd (hcreated.symm.trans hexists) (by simp)
        · exact absurd (hnone.symm.trans hw') (by simp)
  · cases label with
    | resume i input offset =>
      rcases List.mem_append.mp hrecord with hnew | hold
      · exact hmono r (h.tasks i r (Option.mem_toList.mp hnew))
      · exact hmono r (h.records r hold)
    | _ => exact hmono r (h.records r hrecord)

/-- In every reachable state the records are of applied calls. -/
theorem recordsApplied {s : Sys} (h : (sysMachine svc).Reach s) : s.RecordsApplied := by
  refine h.invariant (P := RecordsApplied) ?_ fun s label hr ih ha => ih.exec hr ha
  rintro s ⟨-, htasks, -, -, hrecords⟩
  exact ⟨fun i r h => by simp [htasks i, Task.record] at h, fun r h => by simp [hrecords] at h⟩

/-- The calls of `record` about a watch are the records of a run: each of them is one, and none is lost;
their order and how often they come are free. -/
structure Delivers (s : Sys) (u : String) (calls : List HistoryCall) : Prop where
  /-- Every call is a record of the run. -/
  sound : ∀ call ∈ calls, call.watch.watchId = u →
    ∃ r ∈ s.records, call.watch = r.watch ∧ call.revision = r.revision
  /-- Every record of the run is a call. -/
  complete : ∀ r ∈ s.records, r.watch.watchId = u →
    ∃ call ∈ calls, call.watch = r.watch ∧ call.revision = r.revision

instance (s : Sys) (u : String) (calls : List HistoryCall) : Decidable (s.Delivers u calls) :=
  decidable_of_iff
    ((∀ call ∈ calls, call.watch.watchId = u →
        ∃ r ∈ s.records, call.watch = r.watch ∧ call.revision = r.revision) ∧
      ∀ r ∈ s.records, r.watch.watchId = u →
        ∃ call ∈ calls, call.watch = r.watch ∧ call.revision = r.revision)
    ⟨fun h => ⟨h.1, h.2⟩, fun h => ⟨h.sound, h.complete⟩⟩

/-- The history projection converges. When every transition of a watch was recorded, and the records
reach the table in any order and any number of times, the row of the watch shows the live document, its
status and its revision. And no call on any table lowers the revision of a row or changes a terminal
one. -/
theorem history_converges {s : Sys} (hr : (sysMachine svc).Reach s) {u : String}
    (hrecorded : ∀ r ∈ s.store.transitions u, r ∈ s.records) {calls : List HistoryCall}
    (hd : s.Delivers u calls) :
    (∀ w rt, s.store.mem.watches.get? u = some w → s.store.mem.runtimes.get? u = some rt →
      ∃ row, (WatchHistory.project calls).get? u = some row ∧ row.watchJson = w ∧
        row.status = w.status ∧ row.revision = rt.revision) ∧
    ∀ (t : WatchHistory) (call : HistoryCall) v row, t.get? v = some row →
      ∃ row', (t.record call).get? v = some row' ∧ row.revision ≤ row'.revision ∧
        (row.status ≠ .active → row' = row) := by
  refine ⟨fun w rt hw hrt => ?_, fun t call v row hrow => ?_⟩
  · have htracked := Store.tracked (reach_store hr) u
    have happlied := (recordsApplied hr).records
    -- The calls about the watch are records that the store tracks.
    have hsound : ∀ call ∈ calls, call.watch.watchId = u →
        ∃ r ∈ s.store.transitions u, call.watch = r.watch ∧ call.revision = r.revision := by
      intro call hcall hu
      obtain ⟨r, hr', hwatch, hrevision⟩ := hd.sound call hcall hu
      exact ⟨r, Store.mem_transitions.mpr ⟨happlied r hr', hwatch ▸ hu⟩, hwatch, hrevision⟩
    have hlive := htracked.live w rt hw hrt
    have hid : w.watchId = u := (Store.mem_transitions.mp hlive).2
    obtain ⟨call, hcall, hwatch, hrevision⟩ := hd.complete _ (hrecorded _ hlive) hid
    have hcallid : call.watch.watchId = u := by rw [hwatch]; exact hid
    have hprojection := project_projection hcall hcallid ?_ ?_
    · obtain ⟨row, hrow, heq⟩ := Option.map_eq_some_iff.mp hprojection
      obtain ⟨hjson, hstatus, hrev⟩ := Projection.mk.inj heq
      exact ⟨row, hrow, hjson.trans hwatch, by rw [hstatus, hwatch], hrev.trans hrevision⟩
    · intro c hc hu
      obtain ⟨r, -, -, hrev⟩ := hsound c hc hu
      omega
    · intro c hc hu
      obtain ⟨r, hr', hcw, hcr⟩ := hsound c hc hu
      rcases htracked.older w rt hw hrt r hr' with rfl | ⟨hopen, hlt⟩
      · left
        rw [HistoryCall.projection, HistoryCall.projection, hcw, hcr, hwatch, hrevision]
      · right
        refine ⟨?_, ?_⟩
        · show decide (c.watch.status = .active) = true
          rw [hcw]
          simpa using hopen
        · show c.revision < call.revision
          rw [hcr, hrevision]
          exact_mod_cast hlt
  · rw [WatchHistory.get?_record]
    by_cases h : call.watch.watchId = v
    · rw [if_pos h, hrow]
      exact ⟨_, rfl, upsert_monotone row call.excluded⟩
    · rw [if_neg h]
      exact ⟨row, hrow, le_rfl, fun _ => rfl⟩

/-- A run in which the first check of a watch is committed and recorded before the service records its
creation. -/
def overtakenRun : List SysLabel :=
  createRun false ++
    [.start 1 (.claiming "w" "w:0" "a" true), .resume 1 .proceed 0, .resume 1 .proceed 0,
      .resume 1 (.slots []) 0, .resume 1 .proceed 0, .resume 1 .proceed 0, .resume 0 .proceed 0]

/-- The service after the run `overtakenRun`. -/
def overtakenSys : Sys := (sysMachine .sample).final fresh overtakenRun

theorem overtakenSys_reach : (sysMachine .sample).Reach overtakenSys :=
  fresh_reach.final (by decide +kernel)

/-- The calls that the service makes in a run for a watch of an anonymous owner, in their order. -/
def anonymousCalls (ownerClientId : String) (s : Sys) : List HistoryCall :=
  s.records.reverse.map fun r =>
    ⟨r.watch, if r.revision = 0 then some ownerClientId else none, none, r.revision⟩

/-- After the run `overtakenRun` the row of the watch shows its live document, of revision 1. -/
theorem history_converges_overtaken : ∃ row,
    (WatchHistory.project (anonymousCalls "c" overtakenSys)).get? "w" = some row ∧ row.revision = 1 := by
  have hrecorded : ∀ r ∈ overtakenSys.store.transitions "w", r ∈ overtakenSys.records := by
    decide +kernel
  have hd : overtakenSys.Delivers "w" (anonymousCalls "c" overtakenSys) := by decide +kernel
  have hw : (overtakenSys.store.mem.watches.get? "w").isSome = true := by decide +kernel
  have hrt : (overtakenSys.store.mem.runtimes.get? "w").map WatchRuntime.revision = some 1 := by
    decide +kernel
  obtain ⟨w, hw⟩ := Option.isSome_iff_exists.mp hw
  obtain ⟨rt, hrt, hrevision⟩ := Option.map_eq_some_iff.mp hrt
  obtain ⟨row, hrow, -, -, hrow'⟩ :=
    (history_converges overtakenSys_reach hrecorded hd).1 w rt hw hrt
  exact ⟨row, hrow, by rw [hrow', hrevision]; rfl⟩

end Sys

end Dibs
