import Dibs.Lib.StableSort
import Dibs.Store.Steps

/-!
# Bounded cleanup of the in-memory store

`cleanup_due` takes the due entries of the table of deadlines, oldest first, and removes a batch of them. In
every store that the protocol reaches an entry stands for a finished watch (`Row.Retired`), so a batch is
removed whole, and what is due afterwards is what was due before without the batch
(`Memory.due_cleanupDue`). That is all there is to how often it must be called.
-/

namespace Dibs

open Function (update)

/-- Only a finished watch has an entry in the table of deadlines. -/
def Row.Retired (r : Row) : Prop :=
  ∀ deadline, r.deadline = some deadline → ∃ w, r.watch = some w ∧ w.status ≠ .active

/-- A row with the same document and deadline. -/
theorem Row.Retired.same {r r' : Row} (h : r.Retired) (hwatch : r'.watch = r.watch)
    (hdeadline : r'.deadline = r.deadline) : r'.Retired := by
  intro deadline hd
  rw [hdeadline] at hd
  rw [hwatch]
  exact h deadline hd

/-- An effect of a call keeps it. -/
theorem Row.Retired.effect {d : Duration} {now : Time} {r r' : Row} {op : Op} {reply : Reply}
    (h : r.Retired) (he : Effect d now r op reply r') : r'.Retired := by
  cases he with
  | create hnone =>
    intro deadline hd
    obtain ⟨w, hw, -⟩ := h deadline hd
    rw [hnone] at hw
    contradiction
  | reschedule hwatch hruntime hactive =>
    intro deadline hd
    obtain ⟨w, hw, hended⟩ := h deadline hd
    obtain rfl := Option.some.inj (hwatch.symm.trans hw)
    exact absurd hactive hended
  | finish _ _ _ _ _ hnew => exact fun _ _ => ⟨_, rfl, hnew⟩
  | cancel => exact fun _ _ => ⟨_, rfl, by simp⟩
  | expire => exact fun _ _ => ⟨_, rfl, by simp⟩
  | _ => exact h.same rfl rfl

/-- So does a cleanup. -/
theorem Row.Retired.cleanup {r r' : Row} (h : r.Retired) (hc : Memory.CleanupStep r r') : r'.Retired := by
  rcases hc with rfl | ⟨-, rfl⟩ | ⟨-, rfl⟩
  · exact h
  · intro deadline hd
    contradiction
  · intro deadline hd
    contradiction

namespace Memory

/-- Only finished watches have an entry in the table of deadlines. -/
def Retired (m : Memory) : Prop := ∀ u, (m.row u).Retired

/-- So it is in every reachable state, whatever the calls. -/
theorem retired_of_reach {ok : Store → Op → Prop} {s : Store} (h : (storeMachine ok).Reach s) :
    s.mem.Retired := by
  refine Store.row_invariant (P := fun _ _ r => r.Retired) (fun u now deadline hd => ?_)
    (fun h _ => h) (fun _ _ _ h he => h.effect he) (fun h hc => h.cleanup hc) h
  contradiction

/-- The order in which due entries are taken. -/
abbrev before (a b : String × Time) : Bool := decide (a.2 ≤ b.2)

theorem before_trans (a b c : String × Time) (hab : before a b = true) (hbc : before b c = true) :
    before a c = true :=
  decide_eq_true (le_trans (of_decide_eq_true hab) (of_decide_eq_true hbc))

theorem before_total (a b : String × Time) : (before a b || before b a) = true := by
  simpa [before] using le_total a.2 b.2

/-- The due entries, oldest deadline first. -/
def due (m : Memory) (now : Time) : List (String × Time) :=
  (m.terminalDeleteAt.entries.filter fun e => decide (e.2 ≤ now)).mergeSort before

/-- The ids of a batch. -/
def batch (m : Memory) (now : Time) (batchSize : ℕ) : List String :=
  ((m.due now).map Prod.fst).take batchSize

theorem mem_due (m : Memory) (now : Time) (u : String) (t : Time) :
    (u, t) ∈ m.due now ↔ m.terminalDeleteAt.get? u = some t ∧ t ≤ now := by
  rw [due, List.mem_mergeSort, List.mem_filter, Dict.get?_eq_some_iff, decide_eq_true_eq]

/-- They are sorted by their deadlines. -/
theorem due_sorted (m : Memory) (now : Time) : (m.due now).Pairwise fun a b => a.2 ≤ b.2 := by
  have hsorted := List.pairwise_mergeSort before_trans before_total
    (m.terminalDeleteAt.entries.filter fun e => decide (e.2 ≤ now))
  exact hsorted.imp fun h => of_decide_eq_true h

/-- No watch is due twice. -/
theorem due_nodup (m : Memory) (now : Time) : ((m.due now).map Prod.fst).Nodup := by
  have hperm := (List.mergeSort_perm (m.terminalDeleteAt.entries.filter fun e => decide (e.2 ≤ now)) before)
  refine ((hperm.map Prod.fst).nodup_iff).mpr ?_
  exact m.terminalDeleteAt.nodup.sublist (List.filter_sublist.map Prod.fst)

theorem batch_nodup (m : Memory) (now : Time) (batchSize : ℕ) : (m.batch now batchSize).Nodup :=
  (m.due_nodup now).sublist (List.take_sublist ..)

theorem mem_batch_due {m : Memory} {now : Time} {batchSize : ℕ} {u : String}
    (h : u ∈ m.batch now batchSize) : ∃ t, m.terminalDeleteAt.get? u = some t ∧ t ≤ now := by
  obtain ⟨e, he, rfl⟩ := List.mem_map.mp (List.mem_of_mem_take h)
  exact ⟨e.2, (m.mem_due now e.1 e.2).mp he⟩

/-! ## One cleanup -/

/-- A batch of finished watches is removed whole. -/
theorem foldl_cleanupOne {batch : List String} (hnodup : batch.Nodup) (n : ℕ) (m : Memory)
    (hended : ∀ u ∈ batch, ∃ w, (m.row u).watch = some w ∧ w.status ≠ .active) :
    batch.foldl cleanupOne (n, m) = (n + batch.length, batch.foldl remove m) := by
  induction batch generalizing n m with
  | nil => rfl
  | cons u batch ih =>
    obtain ⟨hu, hnodup⟩ := List.nodup_cons.mp hnodup
    obtain ⟨w, hw, hstatus⟩ := hended u List.mem_cons_self
    have hdoc : m.watches.get? u = some w := hw
    have hterminal : w.status.isTerminal = true := by simpa using hstatus
    have hone : cleanupOne (n, m) u = (n + 1, m.remove u) := by
      simp [cleanupOne, hdoc, hterminal]
    rw [List.foldl_cons, hone, ih hnodup (n + 1) (m.remove u), List.foldl_cons, List.length_cons]
    · rw [add_assoc, add_comm 1]
    · -- The other watches of the batch are not touched.
      intro v hv
      have hne : v ≠ u := fun heq => hu (heq ▸ hv)
      rw [row_remove, Function.update_of_ne hne]
      exact hended v (List.mem_cons_of_mem _ hv)

theorem row_foldl_remove (batch : List String) (m : Memory) (v : String) :
    (batch.foldl remove m).row v = if v ∈ batch then Row.vacant else m.row v := by
  induction batch generalizing m with
  | nil => simp
  | cons u batch ih =>
    rw [List.foldl_cons, ih, row_remove]
    by_cases hv : v ∈ batch
    · simp [hv]
    · by_cases heq : v = u
      · simp [heq]
      · simp [hv, heq]

/-- The table of deadlines after the removal of a batch. -/
theorem entries_foldl_remove (batch : List String) (m : Memory) :
    (batch.foldl remove m).terminalDeleteAt.entries =
      m.terminalDeleteAt.entries.filter fun e => !decide (e.1 ∈ batch) := by
  induction batch generalizing m with
  | nil => simp
  | cons u batch ih =>
    rw [List.foldl_cons, ih]
    change ((m.terminalDeleteAt.entries.filter fun e => !decide (e.1 = u)).filter _) = _
    rw [List.filter_filter]
    refine List.filter_congr fun e _ => ?_
    by_cases h : e.1 = u <;> simp [h]

theorem events_foldl_remove (batch : List String) (m : Memory) :
    (batch.foldl remove m).events = m.events ∧ (batch.foldl remove m).retention = m.retention := by
  induction batch generalizing m with
  | nil => exact ⟨rfl, rfl⟩
  | cons u batch ih => exact ih (m.remove u)

/-- What a cleanup leaves, and how many watches it has removed. -/
theorem cleanupDue_eq {m : Memory} (h : m.Retired) (now : Time) (batchSize : ℕ) :
    (m.cleanupDue now batchSize).2 = (m.batch now batchSize).foldl remove m ∧
      (m.cleanupDue now batchSize).1.removed = (m.batch now batchSize).length := by
  have hended : ∀ u ∈ m.batch now batchSize, ∃ w, (m.row u).watch = some w ∧ w.status ≠ .active := by
    intro u hu
    obtain ⟨t, ht, -⟩ := mem_batch_due hu
    exact h u t ht
  have hfold := foldl_cleanupOne (m.batch_nodup now batchSize) 0 m hended
  unfold cleanupDue
  dsimp only
  change (List.foldl cleanupOne (0, m) (m.batch now batchSize)).2 = _ ∧
    (List.foldl cleanupOne (0, m) (m.batch now batchSize)).1 = _
  rw [hfold]
  exact ⟨rfl, Nat.zero_add _⟩

/-- The first entries of a list with distinct keys go when their keys are filtered out. -/
theorem filter_take_keys {l : List (String × Time)} (h : (l.map Prod.fst).Nodup) (n : ℕ) :
    l.filter (fun e => !decide (e.1 ∈ (l.map Prod.fst).take n)) = l.drop n := by
  have hsplit : (l.take n ++ l.drop n).filter (fun e => !decide (e.1 ∈ (l.map Prod.fst).take n)) =
      l.drop n := by
    rw [List.filter_append, ← List.map_take]
    have htake : (l.take n).filter (fun e => !decide (e.1 ∈ (l.take n).map Prod.fst)) = [] := by
      refine List.filter_eq_nil_iff.mpr fun e he => ?_
      have hin : e.1 ∈ (l.take n).map Prod.fst := List.mem_map_of_mem he
      rw [decide_eq_true hin]
      decide
    have hdrop : (l.drop n).filter (fun e => !decide (e.1 ∈ (l.take n).map Prod.fst)) = l.drop n := by
      refine List.filter_eq_self.mpr fun e he => ?_
      rw [← List.take_append_drop n l, List.map_append] at h
      have hapart := List.disjoint_of_nodup_append h
      have hnot : e.1 ∉ (l.take n).map Prod.fst :=
        fun hin => hapart hin (List.mem_map_of_mem he)
      simpa using hnot
    rw [htake, hdrop, List.nil_append]
  rwa [List.take_append_drop] at hsplit

/-- After a cleanup what was due is due, the batch apart. -/
theorem due_cleanupDue {m : Memory} (h : m.Retired) (now : Time) (batchSize : ℕ) :
    ((m.cleanupDue now batchSize).2).due now = (m.due now).drop batchSize := by
  rw [(cleanupDue_eq h now batchSize).1, due, entries_foldl_remove, List.filter_filter]
  have hswap : (m.terminalDeleteAt.entries.filter fun e =>
        decide (e.2 ≤ now) && !decide (e.1 ∈ m.batch now batchSize)) =
      (m.terminalDeleteAt.entries.filter fun e => decide (e.2 ≤ now)).filter fun e =>
        !decide (e.1 ∈ m.batch now batchSize) := by
    rw [List.filter_filter]
    exact List.filter_congr fun e _ => Bool.and_comm ..
  rw [hswap, ← StableSort.filter_mergeSort before_trans before_total]
  exact filter_take_keys (m.due_nodup now) batchSize

/-- A cleanup reports that something remains when something is due. -/
theorem cleanupDue_remaining (m : Memory) (now : Time) (batchSize : ℕ) :
    (m.cleanupDue now batchSize).1.remaining = true ↔ ((m.cleanupDue now batchSize).2).due now ≠ [] := by
  have hreport : (m.cleanupDue now batchSize).1.remaining =
      (m.cleanupDue now batchSize).2.terminalDeleteAt.entries.any fun e => decide (e.2 ≤ now) := rfl
  rw [hreport, List.any_eq_true, ne_eq, List.eq_nil_iff_forall_not_mem, not_forall]
  simp only [not_not]
  refine exists_congr fun e => ?_
  rw [due, List.mem_mergeSort, List.mem_filter]

theorem retired_cleanupDue {m : Memory} (h : m.Retired) (now : Time) (batchSize : ℕ) :
    ((m.cleanupDue now batchSize).2).Retired :=
  fun u => (h u).cleanup (m.cleanupDue_step now batchSize u)

/-! ## What one cleanup does -/

/-- What a cleanup of a store does: it takes a batch of finished watches whose deadlines have passed, the
oldest ones first, and removes them from every table; it leaves everything else as it was, and reports what
it has done and whether something is left. -/
structure CleanedUp (m : Memory) (now : Time) (batchSize : ℕ) (result : CleanupResult) (m' : Memory)
    (batch : List String) : Prop where
  nodup : batch.Nodup
  bounded : batch.length ≤ batchSize
  /-- The watches of the batch are finished, and their time is over. -/
  finished : ∀ u ∈ batch, ∃ w t, m.watches.get? u = some w ∧ w.status.isTerminal = true ∧
    m.terminalDeleteAt.get? u = some t ∧ t ≤ now
  /-- They are taken in the order of their deadlines. -/
  sorted : batch.Pairwise fun u v => ∀ t t', m.terminalDeleteAt.get? u = some t →
    m.terminalDeleteAt.get? v = some t' → t ≤ t'
  /-- A due entry that is not taken is not older, and the batch is full. -/
  oldest : ∀ v t', v ∉ batch → m.terminalDeleteAt.get? v = some t' → t' ≤ now →
    batch.length = batchSize ∧ ∀ u ∈ batch, ∀ t, m.terminalDeleteAt.get? u = some t → t ≤ t'
  gone : ∀ u ∈ batch, m'.row u = Row.vacant
  kept : ∀ v, v ∉ batch → m'.row v = m.row v
  events : m'.events = m.events ∧ m'.retention = m.retention
  removed : result.removed = batch.length
  remaining : result.remaining = true ↔ ∃ v t, m'.terminalDeleteAt.get? v = some t ∧ t ≤ now

/-- A cleanup does this where only finished watches have an entry. -/
theorem cleanedUp {m : Memory} (h : m.Retired) (now : Time) (batchSize : ℕ) :
    CleanedUp m now batchSize (m.cleanupDue now batchSize).1 (m.cleanupDue now batchSize).2
      (m.batch now batchSize) := by
  obtain ⟨hstore, hremoved⟩ := cleanupDue_eq h now batchSize
  -- The deadlines of the due entries are those of the table.
  have hread : ∀ e ∈ m.due now, ∀ t, m.terminalDeleteAt.get? e.1 = some t → t = e.2 := by
    intro e he t ht
    have hentry := ((m.mem_due now e.1 e.2).mp he).1
    exact Option.some.inj (ht.symm.trans hentry)
  have hbatch : m.batch now batchSize = ((m.due now).take batchSize).map Prod.fst := List.map_take.symm
  refine ⟨m.batch_nodup now batchSize, List.length_take_le _ _, fun u hu => ?_, ?_, fun v t' hv ht' hdue => ?_,
    fun u hu => ?_, fun v hv => ?_, ?_, hremoved, ?_⟩
  · obtain ⟨t, ht, hdue⟩ := mem_batch_due hu
    obtain ⟨w, hw, hended⟩ := h u t ht
    exact ⟨w, t, hw, by simpa using hended, ht, hdue⟩
  · rw [hbatch, List.pairwise_map]
    have hsorted := ((m.due_sorted now).sublist (List.take_sublist batchSize _))
    refine hsorted.imp_of_mem fun {a b} ha hb hab t t' ht ht' => ?_
    rw [hread a (List.mem_of_mem_take ha) t ht, hread b (List.mem_of_mem_take hb) t' ht']
    exact hab
  · -- It is behind the batch in the list of what is due.
    have hin : (v, t') ∈ m.due now := (m.mem_due now v t').mpr ⟨ht', hdue⟩
    rw [hbatch] at hv
    have hdrop : (v, t') ∈ (m.due now).drop batchSize := by
      rw [← List.take_append_drop batchSize (m.due now), List.mem_append] at hin
      refine hin.resolve_left fun htake => hv (List.mem_map.mpr ⟨_, htake, rfl⟩)
    constructor
    · have hlong : batchSize < (m.due now).length := by
        by_contra hshort
        rw [List.drop_eq_nil_of_le (not_lt.mp hshort)] at hdrop
        contradiction
      rw [hbatch, List.length_map, List.length_take]
      omega
    · intro u hu t ht
      rw [hbatch] at hu
      obtain ⟨e, he, rfl⟩ := List.mem_map.mp hu
      rw [hread e (List.mem_of_mem_take he) t ht]
      have hsorted := m.due_sorted now
      rw [← List.take_append_drop batchSize (m.due now)] at hsorted
      exact (List.pairwise_append.mp hsorted).2.2 e he _ hdrop
  · rw [hstore, row_foldl_remove, if_pos hu]
  · rw [hstore, row_foldl_remove, if_neg hv]
  · rw [hstore]
    exact events_foldl_remove ..
  · rw [cleanupDue_remaining, ne_eq, List.eq_nil_iff_forall_not_mem, not_forall]
    simp only [not_not, Prod.exists, mem_due]

/-! ## Cleanup after cleanup -/

/-- The store after a number of cleanups with nothing in between. -/
def cleanups (now : Time) (batchSize : ℕ) : ℕ → Memory → Memory
  | 0, m => m
  | n + 1, m => cleanups now batchSize n (m.cleanupDue now batchSize).2

theorem retired_cleanups (now : Time) (batchSize n : ℕ) {m : Memory} (h : m.Retired) :
    (cleanups now batchSize n m).Retired := by
  induction n generalizing m with
  | zero => exact h
  | succ n ih => exact ih (retired_cleanupDue h now batchSize)

/-- Each cleanup takes a batch from the head of what is due. -/
theorem due_cleanups (now : Time) (batchSize n : ℕ) {m : Memory} (h : m.Retired) :
    (cleanups now batchSize n m).due now = (m.due now).drop (n * batchSize) := by
  induction n generalizing m with
  | zero => simp [cleanups]
  | succ n ih =>
    rw [cleanups, ih (retired_cleanupDue h now batchSize), due_cleanupDue h, List.drop_drop]
    congr 1
    rw [Nat.succ_mul, Nat.add_comm]

/-- A further cleanup reports that something remains when its batch and those before it do not reach the
end of what was due. -/
theorem cleanups_remaining (now : Time) (batchSize n : ℕ) {m : Memory} (h : m.Retired) :
    ((cleanups now batchSize n m).cleanupDue now batchSize).1.remaining = true ↔
      (n + 1) * batchSize < (m.due now).length := by
  rw [cleanupDue_remaining, due_cleanupDue (retired_cleanups now batchSize n h), due_cleanups now batchSize n h,
    List.drop_drop, ne_eq, List.drop_eq_nil_iff, not_le, Nat.succ_mul]

end Memory

end Dibs
