import Dibs.History.Convergence

/-!
# The anonymous owner of a watch

An anonymous owner is carried by the creation record alone. The upsert means to keep it (its
`COALESCE`), but updates a row only when the revision increases: a creation record that arrives after
a later record is dropped with its owner. So the owner of a row is decided by the first record that
reaches it. When that is the creation record every later row keeps the owner (`Kept`), and otherwise
none ever gets one (`Unowned`).
-/

namespace Dibs

/-- A row of an anonymous owner. -/
structure HistoryRow.Kept (ownerClientId : String) (row : HistoryRow) : Prop where
  /-- The owner is there. -/
  owner : row.ownerClientId = some ownerClientId
  /-- No account owns the watch. -/
  user : row.userId = none

/-- A row without an owner that no creation record updates. -/
structure HistoryRow.Unowned (row : HistoryRow) : Prop where
  /-- There is no owner. -/
  owner : row.ownerClientId = none
  /-- No account owns the watch. -/
  user : row.userId = none
  /-- The row is past the creation. -/
  revision : 1 ≤ row.revision

/-- A call for a watch of an anonymous owner, as the service makes it: the creation record carries the
owner, and no record an account. -/
structure HistoryCall.Anonymous (ownerClientId : String) (call : HistoryCall) : Prop where
  /-- No account owns the watch. -/
  user : call.userId = none
  /-- Revisions count from the creation. -/
  revision : 0 ≤ call.revision
  /-- Only the creation record carries the owner. -/
  owner : call.ownerClientId = if call.revision = 0 then some ownerClientId else none

/-- An upsert of an anonymous watch keeps the owner of its row. -/
theorem HistoryRow.Kept.upsert {c : String} {row : HistoryRow} (h : row.Kept c) {call : HistoryCall}
    (hc : call.Anonymous c) : (upsertRow (some row) call.excluded).Kept c := by
  simp only [upsertRow]
  split_ifs with haccepts
  · refine ⟨?_, ?_⟩
    · -- What the call carries is the owner or nothing, and nothing leaves the owner.
      show (call.ownerClientId <|> row.ownerClientId) = some c
      rw [hc.owner, h.owner]
      split_ifs <;> rfl
    · show (call.userId <|> row.userId) = none
      rw [hc.user, h.user]
      rfl
  · exact h

/-- An upsert of an anonymous watch gives no owner to a row that is past the creation. -/
theorem HistoryRow.Unowned.upsert {c : String} {row : HistoryRow} (h : row.Unowned)
    {call : HistoryCall} (hc : call.Anonymous c) : (upsertRow (some row) call.excluded).Unowned := by
  simp only [upsertRow]
  split_ifs with haccepts
  · have hrevision := h.revision
    have hlt : row.revision < call.revision := by
      rcases haccepts.2 with hlt | ⟨-, hold, -⟩
      · exact hlt
      · omega
    refine ⟨?_, ?_, ?_⟩
    · show (call.ownerClientId <|> row.ownerClientId) = none
      rw [hc.owner, h.owner, if_neg (by omega)]
      rfl
    · show (call.userId <|> row.userId) = none
      rw [hc.user, h.user]
      rfl
    · show 1 ≤ call.revision
      omega
  · exact h

/-- What every upsert keeps, all of them keep. -/
theorem foldl_upsert_keeps {P : HistoryRow → Prop} {calls : List HistoryCall}
    (h : ∀ call ∈ calls, ∀ row, P row → P (upsertRow (some row) call.excluded)) {row : HistoryRow}
    (hrow : P row) : ∃ row', calls.foldl (fun row call => some (upsertRow row call.excluded)) (some row) =
      some row' ∧ P row' := by
  induction calls generalizing row with
  | nil => exact ⟨row, rfl, hrow⟩
  | cons call calls ih =>
    exact ih (fun call' hc => h call' (List.mem_cons_of_mem _ hc)) (h call List.mem_cons_self row hrow)

namespace WatchHistory

/-- The first call about a watch. -/
def firstAbout (u : String) (calls : List HistoryCall) : Option HistoryCall :=
  calls.find? fun call => decide (call.watch.watchId = u)

/-- The row of an anonymous watch keeps its owner, or never gets one, as the first call decides. -/
theorem project_anonymous {c u : String} {calls : List HistoryCall}
    (h : ∀ call ∈ calls, call.watch.watchId = u → call.Anonymous c) :
    (firstAbout u calls = none ∧ (project calls).get? u = none) ∨
    ∃ first row, firstAbout u calls = some first ∧ (project calls).get? u = some row ∧
      ((first.revision = 0 ∧ row.Kept c) ∨ (first.revision ≠ 0 ∧ row.Unowned)) := by
  have hfilter : ∀ call ∈ calls.filter fun call => decide (call.watch.watchId = u), call.Anonymous c := by
    intro call hcall
    obtain ⟨hcall, hu⟩ := List.mem_filter.mp hcall
    exact h call hcall (by simpa using hu)
  rw [project, get?_foldl_record, firstAbout, ← List.head?_filter, Dict.get?_empty]
  generalize (calls.filter fun call => decide (call.watch.watchId = u)) = about at hfilter
  cases about with
  | nil => exact .inl ⟨rfl, rfl⟩
  | cons first rest =>
    right
    have hfirst := hfilter first List.mem_cons_self
    have hrest : ∀ call ∈ rest, call.Anonymous c := fun call hc => hfilter call (List.mem_cons_of_mem _ hc)
    by_cases hzero : first.revision = 0
    · have hkept : first.excluded.Kept c := by
        refine ⟨?_, hfirst.user⟩
        show first.ownerClientId = some c
        rw [hfirst.owner, if_pos hzero]
      obtain ⟨row, hrow, hkept⟩ := foldl_upsert_keeps (P := HistoryRow.Kept c)
        (fun call hc row hk => hk.upsert (hrest call hc)) hkept
      exact ⟨first, row, rfl, hrow, .inl ⟨hzero, hkept⟩⟩
    · have hunowned : first.excluded.Unowned := by
        refine ⟨?_, hfirst.user, ?_⟩
        · show first.ownerClientId = none
          rw [hfirst.owner, if_neg hzero]
        · have hnonneg := hfirst.revision
          show 1 ≤ first.revision
          omega
      obtain ⟨row, hrow, hunowned⟩ := foldl_upsert_keeps (P := HistoryRow.Unowned)
        (fun call hc row hk => hk.upsert (hrest call hc)) hunowned
      exact ⟨first, row, rfl, hrow, .inr ⟨hzero, hunowned⟩⟩

/-- The creation record is the first one about a watch. -/
def CreationFirst (u : String) (calls : List HistoryCall) : Prop :=
  ∃ first, firstAbout u calls = some first ∧ first.revision = 0

instance (u : String) (calls : List HistoryCall) : Decidable (CreationFirst u calls) :=
  decidable_of_iff (((firstAbout u calls).any fun call => decide (call.revision = 0)) = true)
    (by simp [CreationFirst, Option.any_eq_true])

/-- `list_for_owner` selects a watch, before its limit. -/
def Lists (t : WatchHistory) (c u : String) : Prop :=
  ∃ row ∈ t.select (unclaimed c), row.watchJson.watchId = u

/-- What a selection contains. -/
theorem mem_select {t : WatchHistory} {p : HistoryRow → Bool} {row : HistoryRow} :
    row ∈ t.select p ↔ (∃ v, t.get? v = some row) ∧ p row = true := by
  rw [select, List.mem_mergeSort, List.mem_filter, List.mem_map]
  refine and_congr_left fun _ => ⟨?_, ?_⟩
  · rintro ⟨⟨v, row'⟩, hmem, rfl⟩
    exact ⟨v, (Dict.get?_eq_some_iff t).mpr hmem⟩
  · rintro ⟨v, hv⟩
    exact ⟨(v, row), (Dict.get?_eq_some_iff t).mp hv, rfl⟩

/-- Every row holds the document of its own watch. -/
theorem watchId_project {calls : List HistoryCall} {v : String} {row : HistoryRow}
    (h : (project calls).get? v = some row) : row.watchJson.watchId = v := by
  have key : ∀ (calls : List HistoryCall) (t : WatchHistory),
      (∀ v row, t.get? v = some row → row.watchJson.watchId = v) →
      ∀ v row, (calls.foldl record t).get? v = some row → row.watchJson.watchId = v := by
    intro calls
    induction calls with
    | nil => exact fun t ht => ht
    | cons call calls ih =>
      refine fun t ht => ih (t.record call) fun v row hrow => ?_
      rw [get?_record] at hrow
      split_ifs at hrow with hid
      · obtain rfl := Option.some.inj hrow
        cases hold : t.get? v with
        | none => exact hid
        | some old =>
          simp only [upsertRow]
          split_ifs
          · exact hid
          · exact ht v old hold
      · exact ht v row hrow
  exact key calls .empty (by simp) v row h

/-- A watch is listed for its owner when its row has the owner and no account. -/
theorem lists_project {calls : List HistoryCall} {c u : String} :
    (project calls).Lists c u ↔ ∃ row, (project calls).get? u = some row ∧ unclaimed c row = true := by
  refine ⟨?_, ?_⟩
  · rintro ⟨row, hmem, hid⟩
    obtain ⟨⟨v, hv⟩, hp⟩ := mem_select.mp hmem
    obtain rfl : v = u := (watchId_project hv).symm.trans hid
    exact ⟨row, hv, hp⟩
  · rintro ⟨row, hrow, hp⟩
    exact ⟨row, mem_select.mpr ⟨⟨u, hrow⟩, hp⟩, watchId_project hrow⟩

/-- The account of a watch after its anonymous owner was claimed. -/
theorem getAccountOwner_claimAnonymous (t : WatchHistory) (c userId u : String) :
    (t.claimAnonymous c userId).getAccountOwner u =
      (t.get? u).bind fun row => if unclaimed c row then some userId else row.userId := by
  rw [getAccountOwner, claimAnonymous, Dict.get?_map]
  cases t.get? u with
  | none => rfl
  | some row =>
    simp only [Option.map_some, Option.bind_some]
    split_ifs <;> rfl

end WatchHistory

namespace Sys

open WatchHistory

/-- The anonymous owner of a watch survives exactly when its creation record comes first. Of the
records of a run for a watch that was created for an anonymous owner, delivered in any order and any
number of times: the row ends up with the owner, the watch is listed for the owner, and an account that
claims the owner gets the watch, each if and only if the first record that reaches the table is the
creation record. -/
theorem owner_kept_iff {s : Sys} {u c : String} {calls : List HistoryCall} (hd : s.Delivers u calls)
    (hc : ∀ call ∈ calls, call.watch.watchId = u → call.userId = none ∧
      call.ownerClientId = if call.revision = 0 then some c else none) :
    ((∃ row, (project calls).get? u = some row ∧ row.ownerClientId = some c) ↔ CreationFirst u calls) ∧
    ((project calls).Lists c u ↔ CreationFirst u calls) ∧
    ∀ userId, ((project calls).claimAnonymous c userId).getAccountOwner u = some userId ↔
      CreationFirst u calls := by
  have hanonymous : ∀ call ∈ calls, call.watch.watchId = u → call.Anonymous c := by
    intro call hcall hu
    obtain ⟨r, -, -, hrevision⟩ := hd.sound call hcall hu
    exact ⟨(hc call hcall hu).1, by omega, (hc call hcall hu).2⟩
  rw [lists_project]
  simp only [getAccountOwner_claimAnonymous, CreationFirst]
  rcases project_anonymous hanonymous with ⟨hnone, hrow⟩ |
    ⟨first, row, hfirst, hrow, ⟨hzero, hkept⟩ | ⟨hne, hunowned⟩⟩
  · simp [hnone, hrow]
  · have hunclaimed : unclaimed c row = true := by
      simp [unclaimed, hkept.owner, hkept.user]
    simp [hfirst, hrow, hzero, hkept.owner, hunclaimed]
  · have hclaimed : unclaimed c row = false := by
      simp [unclaimed, hunowned.owner]
    simp [hfirst, hrow, hne, hunowned.owner, hunowned.user, hclaimed]

/-- In the run `overtakenRun` the creation record comes second, and the watch has no owner. -/
theorem owner_lost : ¬ ∀ s, (sysMachine .sample).Reach s → ∀ calls, s.Delivers "w" calls →
    (∀ r ∈ s.store.transitions "w", r ∈ s.records) →
    (∀ call ∈ calls, call.watch.watchId = "w" → call.userId = none ∧
      call.ownerClientId = if call.revision = 0 then some "c" else none) →
    ∃ row, (project calls).get? "w" = some row ∧ row.ownerClientId = some "c" := by
  intro h
  obtain ⟨row, hrow, howner⟩ := h overtakenSys overtakenSys_reach (anonymousCalls "c" overtakenSys)
    (by decide +kernel) (by decide +kernel) (by decide +kernel)
  have hnone : ((project (anonymousCalls "c" overtakenSys)).get? "w").map HistoryRow.ownerClientId =
      some none := by decide +kernel
  rw [hrow, Option.map_some, howner] at hnone
  contradiction

/-- The calls of the run `overtakenRun` in the order of their revisions keep the owner. -/
theorem owner_kept_iff_ordered : ∃ row,
    (project (anonymousCalls "c" overtakenSys).reverse).get? "w" = some row ∧
      row.ownerClientId = some "c" :=
  (owner_kept_iff (show overtakenSys.Delivers _ _ by decide +kernel) (by decide +kernel)).1.mpr
    (by decide +kernel)

end Sys

end Dibs
