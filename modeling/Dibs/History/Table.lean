import Dibs.Lib.Dict
import Dibs.Lib.Register
import Dibs.Models.Watch

/-!
# The watch history projection

The table `watch_history` and the statements of `backend/db/repositories/watch_history.py`. Each
statement is atomic, so it is a function of the table. The column `watch_json` holds a serialized
`Watch` and is read back by `model_validate_json`; here it is the document itself. Ids of accounts are
strings.

`upsert_projection` says what an upsert does to the public part of a row: it is a write to a register
that keeps the highest revision until the watch is terminal.
-/

namespace Dibs

/-- The arguments of one `record`. -/
structure HistoryCall where
  watch : Watch
  ownerClientId : Option String
  userId : Option String
  revision : ℤ
deriving DecidableEq

/-- A row of `watch_history`; its key is the watch id. -/
structure HistoryRow where
  ownerClientId : Option String
  status : WatchStatus
  createdAt : Time
  updatedAt : Time
  expiresAt : Time
  watchJson : Watch
  userId : Option String
  revision : ℤ
deriving DecidableEq

/-- The row that `_UPSERT_SQL` proposes for insertion, `EXCLUDED` in its update. -/
def HistoryCall.excluded (call : HistoryCall) : HistoryRow where
  ownerClientId := call.ownerClientId
  status := call.watch.status
  createdAt := call.watch.createdAt
  updatedAt := call.watch.updatedAt
  expiresAt := call.watch.expiresAt
  watchJson := call.watch
  userId := call.userId
  revision := call.revision

/-- The `WHERE` of the update in `_UPSERT_SQL`. -/
def HistoryRow.Accepts (row excluded : HistoryRow) : Prop :=
  row.status = .active ∧ (row.revision < excluded.revision ∨
    (excluded.revision = -1 ∧ row.revision = -1 ∧ row.updatedAt ≤ excluded.updatedAt))

instance (row excluded : HistoryRow) : Decidable (row.Accepts excluded) :=
  inferInstanceAs (Decidable (_ ∧ (_ ∨ _)))

/-- The row after `_UPSERT_SQL`. -/
def upsertRow (existing : Option HistoryRow) (excluded : HistoryRow) : HistoryRow :=
  match existing with
  | none => excluded
  | some row =>
    if row.Accepts excluded then
      { excluded with
        createdAt := row.createdAt
        ownerClientId := excluded.ownerClientId <|> row.ownerClientId
        userId := excluded.userId <|> row.userId }
    else row

/-- `_MAX_LIST_LIMIT`. -/
def maxListLimit : ℕ := 1000

/-- The table. -/
abbrev WatchHistory := Dict String HistoryRow

namespace WatchHistory

/-- `WatchHistoryRepository.record`. -/
def record (t : WatchHistory) (call : HistoryCall) : WatchHistory :=
  t.insert call.watch.watchId (upsertRow (t.get? call.watch.watchId) call.excluded)

/-- The rows that satisfy a condition, most recently updated first. -/
def select (t : WatchHistory) (p : HistoryRow → Bool) : List HistoryRow :=
  ((t.entries.map Prod.snd).filter p).mergeSort fun a b => decide (b.updatedAt ≤ a.updatedAt)

/-- A listing of at most `limit` rows. -/
def list (rows : List HistoryRow) (limit : ℕ) : Except String (List Watch) :=
  if 1 ≤ limit ∧ limit ≤ maxListLimit then .ok ((rows.take limit).map HistoryRow.watchJson)
  else .error ("limit must be between 1 and " ++ toString maxListLimit)

/-- The condition of `_SELECT_FOR_OWNER_SQL` and `_CLAIM_ANONYMOUS_SQL`. -/
def unclaimed (ownerClientId : String) (row : HistoryRow) : Bool :=
  row.ownerClientId = some ownerClientId && row.userId.isNone

/-- `list_for_owner`. -/
def listForOwner (t : WatchHistory) (ownerClientId : String) (limit : ℕ) :
    Except String (List Watch) :=
  list (t.select (unclaimed ownerClientId)) limit

/-- `list_for_user`. -/
def listForUser (t : WatchHistory) (userId : String) (limit : ℕ) : Except String (List Watch) :=
  list (t.select fun row => row.userId = some userId) limit

/-- `claim_anonymous`: assign every watch of an anonymous owner to an account. -/
def claimAnonymous (t : WatchHistory) (ownerClientId userId : String) : WatchHistory :=
  t.map fun row => if unclaimed ownerClientId row then { row with userId := some userId } else row

/-- `get_account_owner`. -/
def getAccountOwner (t : WatchHistory) (watchId : String) : Option String :=
  (t.get? watchId).bind HistoryRow.userId

/-- The table after some calls, from an empty one. -/
def project (calls : List HistoryCall) : WatchHistory := calls.foldl record .empty

/-- A call changes the row of its watch and no other. -/
theorem get?_record (t : WatchHistory) (call : HistoryCall) (u : String) :
    (t.record call).get? u =
      if call.watch.watchId = u then some (upsertRow (t.get? u) call.excluded) else t.get? u := by
  rw [record, Dict.get?_insert]
  split_ifs with h
  · rw [h]
  · rfl

/-- The row of a watch is that of the calls about it. -/
theorem get?_foldl_record (calls : List HistoryCall) (t : WatchHistory) (u : String) :
    (calls.foldl record t).get? u =
      (calls.filter fun call => decide (call.watch.watchId = u)).foldl
        (fun row call => some (upsertRow row call.excluded)) (t.get? u) := by
  induction calls generalizing t with
  | nil => rfl
  | cons call calls ih =>
    rw [List.foldl_cons, ih, get?_record]
    by_cases h : call.watch.watchId = u
    · rw [if_pos h, List.filter_cons_of_pos (by simpa using h), List.foldl_cons]
    · rw [if_neg h, List.filter_cons_of_neg (by simpa using h)]

end WatchHistory

/-- The public part of a row: what a poll or a transition replaces. -/
structure Projection where
  watchJson : Watch
  status : WatchStatus
  revision : ℤ

/-- The public part of a row. -/
def HistoryRow.projection (row : HistoryRow) : Projection := ⟨row.watchJson, row.status, row.revision⟩

/-- The public part of what a call writes. -/
def HistoryCall.projection (call : HistoryCall) : Projection :=
  ⟨call.watch, call.watch.status, call.revision⟩

/-- A row is replaced until its watch is terminal. -/
def Projection.isOpen (p : Projection) : Bool := p.status = .active

/-- To the public part of a row an upsert is a write to a register. -/
theorem upsert_projection (existing : Option HistoryRow) {call : HistoryCall} (h : call.revision ≠ -1) :
    some (upsertRow existing call.excluded).projection =
      Register.write Projection.revision Projection.isOpen (existing.map HistoryRow.projection)
        call.projection := by
  cases existing with
  | none => rfl
  | some row =>
    have hguard : row.Accepts call.excluded ↔
        (Projection.isOpen row.projection && decide (row.projection.revision < call.projection.revision)) =
          true := by
      rw [Bool.and_eq_true, Projection.isOpen, decide_eq_true_iff, decide_eq_true_iff]
      show row.status = .active ∧ (row.revision < call.revision ∨ call.revision = -1 ∧ _) ↔
        row.status = .active ∧ row.revision < call.revision
      simp [h]
    simp only [upsertRow, Option.map_some, Register.write]
    by_cases ha : row.Accepts call.excluded
    · rw [if_pos ha, if_pos (hguard.mp ha)]
      rfl
    · rw [if_neg ha, if_neg fun hw => ha (hguard.mpr hw)]

/-- An upsert never lowers a revision and never changes a terminal row. -/
theorem upsert_monotone (row excluded : HistoryRow) :
    row.revision ≤ (upsertRow (some row) excluded).revision ∧
      (row.status ≠ .active → upsertRow (some row) excluded = row) := by
  by_cases h : row.Accepts excluded
  · refine ⟨?_, fun hne => absurd h.1 hne⟩
    rw [upsertRow, if_pos h]
    rcases h.2 with hlt | ⟨hnew, hold, -⟩
    · exact hlt.le
    · exact (hold.trans hnew.symm).le
  · rw [upsertRow, if_neg h]
    exact ⟨le_rfl, fun _ => rfl⟩

/-- The public part of a row after some calls is that of the writes to a register. -/
theorem foldl_upsert_projection (calls : List HistoryCall) (h : ∀ call ∈ calls, call.revision ≠ -1)
    (existing : Option HistoryRow) :
    (calls.foldl (fun row call => some (upsertRow row call.excluded)) existing).map
        HistoryRow.projection =
      (calls.map HistoryCall.projection).foldl (Register.write Projection.revision Projection.isOpen)
        (existing.map HistoryRow.projection) := by
  induction calls generalizing existing with
  | nil => rfl
  | cons call calls ih =>
    rw [List.foldl_cons, ih fun call' hc => h call' (List.mem_cons_of_mem _ hc), List.map_cons,
      List.foldl_cons, ← upsert_projection existing (h call List.mem_cons_self), Option.map_some]

/-- When one call about a watch is newer than every other one about it, and those are of active
documents, the row of the watch shows what this call wrote. -/
theorem project_projection {calls : List HistoryCall} {u : String} {call : HistoryCall}
    (hcall : call ∈ calls) (hu : call.watch.watchId = u)
    (hrevision : ∀ c ∈ calls, c.watch.watchId = u → c.revision ≠ -1)
    (hnewest : ∀ c ∈ calls, c.watch.watchId = u → c.projection = call.projection ∨
      Register.Older Projection.revision Projection.isOpen call.projection c.projection) :
    ((WatchHistory.project calls).get? u).map HistoryRow.projection = some call.projection := by
  have hmem : call ∈ calls.filter fun c => decide (c.watch.watchId = u) :=
    List.mem_filter.mpr ⟨hcall, by simpa using hu⟩
  rw [WatchHistory.project, WatchHistory.get?_foldl_record, foldl_upsert_projection]
  · refine Register.foldl_write_newest (List.mem_map.mpr ⟨call, hmem, rfl⟩) fun p hp => ?_
    obtain ⟨c, hc, rfl⟩ := List.mem_map.mp hp
    obtain ⟨hc, hcu⟩ := List.mem_filter.mp hc
    exact hnewest c hc (by simpa using hcu)
  · intro c hc
    obtain ⟨hc, hcu⟩ := List.mem_filter.mp hc
    exact hrevision c hc (by simpa using hcu)

end Dibs
