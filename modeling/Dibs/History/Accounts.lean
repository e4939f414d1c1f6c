import Dibs.History.Ownership
import Dibs.Lib.Machine

/-!
# The account that owns a watch

An account comes to own a watch in two ways: the creation record of an account watch carries it, or the
account claims the watches of an anonymous client (`_claim_anonymous_watches` of
`backend/api/routes/auth.py`). The projection is a machine whose steps are the statements that are
executed, in any order; the creation record of an account watch is executed before any other record of
that watch, and no other record carries an account.

So an account is set once and stays (`owner_kept`): the upsert coalesces it and a claim asks for a null.
`_forbid_if_owned_by_another_account` of `backend/api/routes/watches.py` reads nothing else.
-/

namespace Dibs

/-- `HTTPException`. -/
structure HttpException where
  statusCode : ℕ
  detail : String
deriving DecidableEq

/-- `_forbid_if_owned_by_another_account`, with the projection, if it is enabled, and the account of the
caller, if there is one. -/
def forbidIfOwnedByAnotherAccount (history : Option WatchHistory) (watchId : String)
    (user : Option String) : Except HttpException Unit :=
  match history with
  | none => .ok ()
  | some history =>
    match history.getAccountOwner watchId with
    | some accountOwner =>
      if user = none ∨ user ≠ some accountOwner then .error ⟨404, "Unknown watch: " ++ watchId⟩
      else .ok ()
    | none => .ok ()

/-- A statement on the projection. -/
inductive Statement
  | record (call : HistoryCall)
  | claimAnonymous (ownerClientId userId : String)
deriving DecidableEq

/-- The projection, with the ids of the watches of which a record was executed. -/
structure Accounts where
  table : WatchHistory
  recorded : List String

/-- The machine of the projection. A record carries an account only when it is the first one of its
watch. -/
def accountMachine : Machine Accounts Statement where
  init s := s.table = .empty ∧ s.recorded = []
  allowed s
    | .record call => call.userId = none ∨ call.watch.watchId ∉ s.recorded
    | .claimAnonymous _ _ => True
  exec
    | .record call, s => ⟨s.table.record call, call.watch.watchId :: s.recorded⟩
    | .claimAnonymous c userId, s => ⟨s.table.claimAnonymous c userId, s.recorded⟩

instance (s : Accounts) : DecidablePred (accountMachine.allowed s)
  | .record call => inferInstanceAs (Decidable (call.userId = none ∨ call.watch.watchId ∉ s.recorded))
  | .claimAnonymous _ _ => inferInstanceAs (Decidable True)

/-- An upsert without an account keeps the account of a row. -/
theorem upsertRow_userId {row excluded : HistoryRow} (h : excluded.userId = none) :
    (upsertRow (some row) excluded).userId = row.userId := by
  simp only [upsertRow]
  split_ifs
  · show (excluded.userId <|> row.userId) = row.userId
    rw [h]
    rfl
  · rfl

/-- An upsert keeps the document of a row or replaces it by its own. -/
theorem upsertRow_watchJson (existing : Option HistoryRow) (excluded : HistoryRow) :
    (upsertRow existing excluded).watchJson = excluded.watchJson ∨
      existing.map HistoryRow.watchJson = some (upsertRow existing excluded).watchJson := by
  cases existing with
  | none => exact .inl rfl
  | some row =>
    simp only [upsertRow]
    split_ifs
    · exact .inl rfl
    · exact .inr rfl

namespace WatchHistory

/-- A record without an account changes no owner. -/
theorem getAccountOwner_record {t : WatchHistory} {call : HistoryCall} {u userId : String}
    (hcall : call.userId = none ∨ t.get? call.watch.watchId = none)
    (h : t.getAccountOwner u = some userId) : (t.record call).getAccountOwner u = some userId := by
  obtain ⟨row, hrow, huser⟩ := Option.bind_eq_some_iff.mp h
  rw [getAccountOwner, get?_record]
  split_ifs with hid
  · -- The row is there, so the call carries no account.
    have hnone : call.excluded.userId = none :=
      hcall.resolve_right fun hn => absurd (hn.symm.trans (hid ▸ hrow)) (by simp)
    rw [hrow, Option.bind_some, upsertRow_userId hnone]
    exact huser
  · exact h

/-- A claim takes no watch from an account. -/
theorem getAccountOwner_claimed {t : WatchHistory} {u userId : String}
    (h : t.getAccountOwner u = some userId) (c userId' : String) :
    (t.claimAnonymous c userId').getAccountOwner u = some userId := by
  obtain ⟨row, hrow, huser⟩ := Option.bind_eq_some_iff.mp h
  have hclaimed : unclaimed c row = false := by
    simp [unclaimed, huser]
  rw [getAccountOwner_claimAnonymous, hrow, Option.bind_some, hclaimed]
  exact huser

/-- A claim assigns the unclaimed watches of its client. -/
theorem getAccountOwner_unclaimed {t : WatchHistory} {c u : String} {row : HistoryRow}
    (hrow : t.get? u = some row) (h : unclaimed c row = true) (userId : String) :
    (t.claimAnonymous c userId).getAccountOwner u = some userId := by
  rw [getAccountOwner_claimAnonymous, hrow, Option.bind_some, if_pos h]

/-- A claim assigns nothing else. -/
theorem unclaimed_of_assigned {t : WatchHistory} {c u userId : String}
    (h : (t.claimAnonymous c userId).getAccountOwner u ≠ t.getAccountOwner u) :
    ∃ row, t.get? u = some row ∧ row.ownerClientId = some c ∧ row.userId = none := by
  rw [getAccountOwner_claimAnonymous, getAccountOwner] at h
  cases hrow : t.get? u with
  | none => exact absurd (by rw [hrow]; rfl) h
  | some row =>
    rw [hrow, Option.bind_some, Option.bind_some] at h
    by_cases hc : unclaimed c row = true
    · exact ⟨row, rfl, by simpa [unclaimed] using hc⟩
    · exact absurd (if_neg hc) h

/-- The documents that `list_for_owner` returns are those of watches that no account owns, when every row
holds the document of its own watch. -/
theorem listForOwner_unowned {t : WatchHistory}
    (hkey : ∀ v row, t.get? v = some row → row.watchJson.watchId = v) {c : String} {limit : ℕ}
    {watches : List Watch} (h : t.listForOwner c limit = .ok watches) :
    ∀ w ∈ watches, t.getAccountOwner w.watchId = none := by
  intro w hw
  unfold listForOwner list at h
  split_ifs at h
  obtain rfl := Except.ok.inj h
  obtain ⟨row, hmem, rfl⟩ := List.mem_map.mp hw
  obtain ⟨⟨v, hrow⟩, hp⟩ := mem_select.mp (List.mem_of_mem_take hmem)
  have huser : row.userId = none := by
    simp only [unclaimed, Bool.and_eq_true, Option.isNone_iff_eq_none] at hp
    exact hp.2
  rw [getAccountOwner, hkey v row hrow, hrow, Option.bind_some, huser]

/-- A watch that an account owns is denied to every other caller. -/
theorem forbid_of_owner {t : WatchHistory} {u userId : String} (h : t.getAccountOwner u = some userId)
    {user : Option String} (hne : user ≠ some userId) :
    forbidIfOwnedByAnotherAccount (some t) u user = .error ⟨404, "Unknown watch: " ++ u⟩ := by
  simp only [forbidIfOwnedByAnotherAccount, h]
  exact if_pos (.inr hne)

end WatchHistory

namespace Accounts

open WatchHistory

/-- Rows are keyed: each holds the document of its own watch, of which a record was executed. -/
def Keyed (s : Accounts) : Prop :=
  ∀ v row, s.table.get? v = some row → row.watchJson.watchId = v ∧ v ∈ s.recorded

/-- In every reachable state the rows are keyed. -/
theorem keyed {s : Accounts} (hr : accountMachine.Reach s) : s.Keyed := by
  refine hr.invariant (P := Keyed) ?_ ?_
  · rintro s ⟨htable, -⟩ v row hrow
    simp [htable] at hrow
  · rintro s (call | ⟨c, userId⟩) - ih - v row hrow
    · change (s.table.record call).get? v = some row at hrow
      rw [get?_record] at hrow
      show _ ∧ v ∈ call.watch.watchId :: s.recorded
      split_ifs at hrow with hid
      · obtain rfl := Option.some.inj hrow
        refine ⟨?_, hid ▸ List.mem_cons_self⟩
        rcases upsertRow_watchJson (s.table.get? v) call.excluded with hnew | hold
        · rw [hnew]
          exact hid
        · obtain ⟨row, hrow, hjson⟩ := Option.map_eq_some_iff.mp hold
          rw [← hjson]
          exact (ih v row hrow).1
      · obtain ⟨hjson, hmem⟩ := ih v row hrow
        exact ⟨hjson, List.mem_cons_of_mem _ hmem⟩
    · change (s.table.claimAnonymous c userId).get? v = some row at hrow
      rw [claimAnonymous, Dict.get?_map] at hrow
      obtain ⟨row', hrow', rfl⟩ := Option.map_eq_some_iff.mp hrow
      obtain ⟨hjson, hmem⟩ := ih v row' hrow'
      refine ⟨?_, hmem⟩
      split_ifs <;> exact hjson

/-- A statement keeps the account that owns a watch. -/
theorem owner_exec {s : Accounts} (hr : accountMachine.Reach s) {statement : Statement}
    (ha : accountMachine.allowed s statement) {u userId : String}
    (h : s.table.getAccountOwner u = some userId) :
    (accountMachine.exec statement s).table.getAccountOwner u = some userId := by
  cases statement with
  | record call =>
    refine getAccountOwner_record ?_ h
    refine Or.imp_right (fun hfirst => ?_) ha
    cases hrow : s.table.get? call.watch.watchId with
    | none => rfl
    | some row => exact absurd (keyed hr _ row hrow).2 hfirst
  | claimAnonymous c userId' => exact getAccountOwner_claimed h c userId'

/-- Once an account owns a watch, it owns it in every later state. -/
theorem owner_kept {s s' : Accounts} (hr : accountMachine.Reach s) (hl : accountMachine.Later s s')
    {u userId : String} (h : s.table.getAccountOwner u = some userId) :
    s'.table.getAccountOwner u = some userId :=
  hl.stable (P := fun s => s.table.getAccountOwner u = some userId)
    (fun _ _ hr h ha => owner_exec hr ha h) hr h

/-- Account ownership is monotone and non-stealing. In every order of the statements that record and
claim watches: an account that owns a watch owns it ever after, and the watch is denied to every other
account and to anonymous callers; a claim assigns only watches of its client that no account owned; a
watch that it finds unclaimed goes to its account for good, whoever claims the client later; and no
listing for a client shows a watch that an account owns. -/
theorem account_ownership_monotone {s : Accounts} (hr : accountMachine.Reach s) :
    (∀ s', accountMachine.Later s s' → ∀ u userId, s.table.getAccountOwner u = some userId →
      s'.table.getAccountOwner u = some userId ∧
      forbidIfOwnedByAnotherAccount (some s'.table) u (some userId) = .ok () ∧
      ∀ user, user ≠ some userId →
        forbidIfOwnedByAnotherAccount (some s'.table) u user = .error ⟨404, "Unknown watch: " ++ u⟩) ∧
    (∀ c userId u, (s.table.claimAnonymous c userId).getAccountOwner u ≠ s.table.getAccountOwner u →
      ∃ row, s.table.get? u = some row ∧ row.ownerClientId = some c ∧ row.userId = none) ∧
    (∀ c userId u row, s.table.get? u = some row → row.ownerClientId = some c → row.userId = none →
      ∀ s', accountMachine.Later (accountMachine.exec (.claimAnonymous c userId) s) s' →
        s'.table.getAccountOwner u = some userId) ∧
    ∀ c limit watches, s.table.listForOwner c limit = .ok watches →
      ∀ w ∈ watches, s.table.getAccountOwner w.watchId = none := by
  refine ⟨fun s' hl u userId h => ?_, fun c userId u h => unclaimed_of_assigned h,
    fun c userId u row hrow hclient huser s' hl => ?_, fun c limit watches h => ?_⟩
  · have hkept := owner_kept hr hl h
    refine ⟨hkept, ?_, fun user hne => forbid_of_owner hkept hne⟩
    simp [forbidIfOwnedByAnotherAccount, hkept]
  · have hunclaimed : unclaimed c row = true := by
      simp [unclaimed, hclient, huser]
    have hclaim : accountMachine.allowed s (.claimAnonymous c userId) := trivial
    exact owner_kept (hr.step _ hclaim) hl (getAccountOwner_unclaimed hrow hunclaimed userId)
  · exact listForOwner_unowned (fun v row hrow => (keyed hr v row hrow).1) h

/-- The records of an account watch and of a watch of the client `c`, and two claims of `c`. -/
def claimRun : List Statement :=
  [.record ⟨Watch.sample "w" false 1000000000 5, some "c", some "alice", 0⟩,
    .record ⟨Watch.sample "v" false 1000000000 5, some "c", none, 0⟩,
    .claimAnonymous "c" "bob",
    .record ⟨{ Watch.sample "w" false 1000000000 5 with attempts := 1 }, none, none, 1⟩,
    .claimAnonymous "c" "carol"]

/-- The projection before any statement. -/
def fresh : Accounts := ⟨.empty, []⟩

/-- After the run `claimRun` the watch `w` is still its creator's and `v` its first claimer's. -/
theorem account_ownership_monotone_claimRun :
    (accountMachine.final fresh claimRun).table.getAccountOwner "w" = some "alice" ∧
    (accountMachine.final fresh claimRun).table.getAccountOwner "v" = some "bob" := by
  have h0 : accountMachine.Reach fresh := .init ⟨rfl, rfl⟩
  have hcreated : accountMachine.Reach (accountMachine.final fresh (claimRun.take 2)) :=
    h0.final (by decide +kernel)
  obtain ⟨hkept, -, hclaimed, -⟩ := account_ownership_monotone hcreated
  have hrest : accountMachine.Runs (accountMachine.final fresh (claimRun.take 2)) (claimRun.drop 2) := by
    decide +kernel
  have hlast : accountMachine.Runs (accountMachine.final fresh (claimRun.take 3)) (claimRun.drop 3) := by
    decide +kernel
  exact ⟨(hkept _ (.of_runs hrest) "w" "alice" (by decide +kernel)).1,
    hclaimed "c" "bob" "v" _ rfl rfl rfl _ (.of_runs hlast)⟩

end Accounts

end Dibs
