import Dibs.Redis.Retention
import Dibs.Store.Cleanup

/-!
# Bounded cleanup in both stores

`CLEANUP_DUE` over a database that holds the documents and the deadlines of an in-memory store. Its terminal
index ranks entries by milliseconds and, among equal scores, by id; the in-memory store sorts by instants and
keeps the order of entry among equal ones. The milliseconds come from a float that can be one low, so that two
instants fall on one. The two cleanups do the same exactly where that does not move an entry into the batch or
out of it (`cleanup_drains`).
-/

namespace Dibs

open Function (update)

/-- The database holds the documents and the deadlines of an in-memory store. -/
structure Redis.Mirrors (db : Redis) (m : Memory) : Prop where
  watches : ∀ u, db.watches.get? u = m.watches.get? u
  terminal : ∀ u, db.terminal.get? u = (m.terminalDeleteAt.get? u).map toMs

namespace Memory

/-- The number of deadlines before an instant. -/
def earlier (m : Memory) (t : Time) : ℕ :=
  (m.terminalDeleteAt.entries.filter fun e => decide (e.2 < t)).length

/-- No two due deadlines are equal. -/
def Distinct (m : Memory) (now : Time) : Prop :=
  ∀ u v t, m.terminalDeleteAt.get? u = some t → m.terminalDeleteAt.get? v = some t → t ≤ now → u = v

/-- The milliseconds tell the batch from the other deadlines. -/
structure OrderedByMs (m : Memory) (now : Time) (batchSize : ℕ) : Prop where
  /-- A deadline after `now` is at a later millisecond, or behind a full batch. -/
  due : ∀ v t, m.terminalDeleteAt.get? v = some t → toMs t ≤ toMs now →
    t ≤ now ∨ batchSize < (m.due now).length
  /-- Of two deadlines at one millisecond the earlier one has the lower id, or both are in the batch, or
  neither. -/
  order : ∀ u v t t', m.terminalDeleteAt.get? u = some t → m.terminalDeleteAt.get? v = some t' → t < t' →
    t ≤ now → toMs t = toMs t' → toMs t' ≤ toMs now → v < u →
    m.earlier t < batchSize → t' ≤ now ∧ m.earlier t' < batchSize

/-- What is due before an entry of a list that is sorted by distinct deadlines stands before it. -/
theorem filter_earlier {l₁ l₂ : List (String × Time)} {e : String × Time}
    (h : (l₁ ++ e :: l₂).Pairwise fun a b => a.2 < b.2) :
    (l₁ ++ e :: l₂).filter (fun a => decide (a.2 < e.2)) = l₁ := by
  obtain ⟨-, hlater, hearlier⟩ := List.pairwise_append.mp h
  have hfirst : l₁.filter (fun a => decide (a.2 < e.2)) = l₁ :=
    List.filter_eq_self.mpr fun a ha => decide_eq_true (hearlier a ha e List.mem_cons_self)
  have hrest : l₂.filter (fun a => decide (a.2 < e.2)) = [] := by
    refine List.filter_eq_nil_iff.mpr fun a ha => ?_
    have hlt := (List.pairwise_cons.mp hlater).1 a ha
    simpa using hlt.le
  rw [List.filter_append, List.filter_cons, hfirst, hrest]
  simp

/-- The due entries are strictly sorted when no two deadlines are equal. -/
theorem due_strict {m : Memory} {now : Time} (hdistinct : m.Distinct now) :
    (m.due now).Pairwise fun a b => a.2 < b.2 := by
  have hnodup : (m.due now).Pairwise fun a b => a.1 ≠ b.1 := List.pairwise_map.mp (m.due_nodup now)
  refine ((m.due_sorted now).and hnodup).imp_of_mem fun {a b} ha hb hab => lt_of_le_of_ne hab.1 fun heq => ?_
  obtain ⟨hta, hdue⟩ := (m.mem_due now a.1 a.2).mp ha
  obtain ⟨htb, -⟩ := (m.mem_due now b.1 b.2).mp hb
  exact hab.2 (hdistinct a.1 b.1 a.2 hta (heq ▸ htb) hdue)

theorem earlier_mono (m : Memory) {t t' : Time} (h : t ≤ t') : m.earlier t ≤ m.earlier t' := by
  refine (List.monotone_filter_right _ fun e he => ?_).length_le
  exact decide_eq_true ((of_decide_eq_true he).trans_le h)

/-- Among the due entries, those with few earlier deadlines come first. -/
theorem earlier_lt_iff (m : Memory) {now : Time} (hdistinct : m.Distinct now) (batchSize : ℕ) {u : String}
    {t : Time} (ht : m.terminalDeleteAt.get? u = some t) (hdue : t ≤ now) :
    m.earlier t < batchSize ↔ u ∈ m.batch now batchSize := by
  obtain ⟨l₁, l₂, hsplit⟩ := List.append_of_mem ((m.mem_due now u t).mpr ⟨ht, hdue⟩)
  have hcount : m.earlier t = l₁.length := by
    have hstrict := due_strict hdistinct
    rw [hsplit] at hstrict
    have hperm : (m.due now).Perm (m.terminalDeleteAt.entries.filter fun e => decide (e.2 ≤ now)) :=
      List.mergeSort_perm _ _
    -- What is earlier than a due deadline is due.
    have hfilter : (m.terminalDeleteAt.entries.filter fun e => decide (e.2 < t)) =
        (m.terminalDeleteAt.entries.filter fun e => decide (e.2 ≤ now)).filter fun e => decide (e.2 < t) := by
      rw [List.filter_filter]
      refine List.filter_congr fun e _ => ?_
      by_cases hlt : e.2 < t
      · simp [hlt, hlt.le.trans hdue]
      · simp [hlt]
    calc m.earlier t = ((m.due now).filter fun e => decide (e.2 < t)).length := by
          rw [earlier, hfilter, (hperm.filter _).length_eq]
      _ = l₁.length := by rw [hsplit, filter_earlier hstrict]
  have hnodup := m.due_nodup now
  rw [hsplit, List.map_append, List.map_cons] at hnodup
  have hfresh : u ∉ l₁.map Prod.fst := by
    intro hin
    exact List.disjoint_of_nodup_append hnodup hin List.mem_cons_self
  rw [hcount, batch, hsplit, List.map_append, List.map_cons, List.take_append, List.length_map, List.mem_append]
  constructor
  · intro hlt
    obtain ⟨k, hk⟩ := Nat.exists_eq_add_of_lt hlt
    have hrest : batchSize - l₁.length = k + 1 := by omega
    rw [hrest, List.take_succ_cons]
    exact .inr List.mem_cons_self
  · rintro (hin | hin)
    · exact absurd (List.mem_of_mem_take hin) hfresh
    · by_contra hge
      have hrest : batchSize - l₁.length = 0 := by omega
      rw [hrest] at hin
      contradiction

/-- A batch takes the due entries with fewer earlier deadlines than its size. -/
theorem mem_batch_iff {m : Memory} {now : Time} (hdistinct : m.Distinct now) (batchSize : ℕ) {u : String}
    {t : Time} (ht : m.terminalDeleteAt.get? u = some t) :
    u ∈ m.batch now batchSize ↔ t ≤ now ∧ m.earlier t < batchSize := by
  constructor
  · intro hu
    obtain ⟨t', ht', hdue⟩ := mem_batch_due hu
    obtain rfl := Option.some.inj (ht.symm.trans ht')
    exact ⟨hdue, (m.earlier_lt_iff hdistinct batchSize ht hdue).mpr hu⟩
  · rintro ⟨hdue, hlt⟩
    exact (m.earlier_lt_iff hdistinct batchSize ht hdue).mp hlt

end Memory

namespace Redis

/-- Both loops take up one watch. -/
theorem Mirrors.cleanupOne {db : Redis} {m : Memory} (h : db.Mirrors m) (n : ℕ) (u : String) :
    (if db.isFinished u then n + 1 else n) = (Memory.cleanupOne (n, m) u).1 ∧
      (db.cleanupOne u).Mirrors (Memory.cleanupOne (n, m) u).2 := by
  have hfinished : db.isFinished u = (m.watches.get? u).any fun w => w.status.isTerminal := by
    rw [isFinished, h.watches]
  -- Elsewhere both leave document and deadline as they are.
  have hdrop : Mirrors { db with terminal := db.terminal.erase u }
      { m with terminalDeleteAt := m.terminalDeleteAt.erase u } := by
    refine ⟨h.watches, fun v => ?_⟩
    rw [Dict.get?_erase, Dict.get?_erase, h.terminal]
    split <;> rfl
  unfold Memory.cleanupOne
  dsimp only
  cases hw : m.watches.get? u with
  | none =>
    have hno : db.isFinished u = false := by rw [hfinished, hw]; rfl
    simp only [Redis.cleanupOne, hno, Bool.false_eq_true, if_false]
    exact ⟨trivial, hdrop⟩
  | some w =>
    cases hterminal : w.status.isTerminal with
    | false =>
      have hno : db.isFinished u = false := by rw [hfinished, hw]; simp [hterminal]
      simp only [Redis.cleanupOne, hno, hterminal, Bool.false_eq_true, if_false]
      exact ⟨trivial, hdrop⟩
    | true =>
      have hyes : db.isFinished u = true := by rw [hfinished, hw]; simp [hterminal]
      simp only [Redis.cleanupOne, hyes, hterminal, if_true]
      refine ⟨trivial, fun v => ?_, fun v => ?_⟩
      · simp only [del, Memory.remove, Dict.get?_erase, h.watches]
      · simp only [del, Memory.remove, Dict.get?_erase, h.terminal]
        split <;> rfl

/-- Both loops run over one batch. -/
theorem Mirrors.loop (batch : List String) {db : Redis} {m : Memory} (h : db.Mirrors m) (n : ℕ) :
    (batch.foldl (fun done watchId =>
        (if done.2.isFinished watchId then done.1 + 1 else done.1, done.2.cleanupOne watchId)) (n, db)).1 =
      (batch.foldl Memory.cleanupOne (n, m)).1 ∧
    (batch.foldl (fun done watchId =>
        (if done.2.isFinished watchId then done.1 + 1 else done.1, done.2.cleanupOne watchId)) (n, db)).2.Mirrors
      (batch.foldl Memory.cleanupOne (n, m)).2 := by
  induction batch generalizing db m n with
  | nil => exact ⟨rfl, h⟩
  | cons u batch ih =>
    obtain ⟨hcount, hmirrors⟩ := h.cleanupOne n u
    rw [List.foldl_cons, List.foldl_cons]
    dsimp only
    rw [hcount]
    exact ih hmirrors _

theorem dueBatch_natCast (db : Redis) (now : Time) (batchSize : ℕ) :
    db.dueBatch now batchSize = (db.terminal.rangeByScore (toMs now)).take batchSize := by
  have hsize : ¬ ((batchSize : ℤ) < 0) := by omega
  unfold dueBatch
  dsimp only
  rw [if_neg hsize, Int.toNat_natCast]

/-- The ids that are due by the milliseconds of their deadlines. -/
theorem Mirrors.mem_range {db : Redis} {m : Memory} (h : db.Mirrors m) (now : Time) (u : String) :
    u ∈ db.terminal.rangeByScore (toMs now) ↔
      ∃ t, m.terminalDeleteAt.get? u = some t ∧ toMs t ≤ toMs now := by
  rw [Dict.mem_rangeByScore, h.terminal]
  simp only [Option.map_eq_some_iff]
  constructor
  · rintro ⟨-, ⟨t, ht, rfl⟩, hle⟩
    exact ⟨t, ht, hle⟩
  · rintro ⟨t, ht, hle⟩
    exact ⟨toMs t, ⟨t, ht, rfl⟩, hle⟩

/-- What `CLEANUP_DUE` removes, in the terms of the store. -/
theorem Mirrors.cleanupDue {db : Redis} {m : Memory} (h : db.Mirrors m) (hretired : m.Retired) (now : Time)
    (batchSize : ℕ) :
    (db.cleanupDue now batchSize).1.removed = (db.dueBatch now batchSize).length ∧
      (db.cleanupDue now batchSize).2.Mirrors ((db.dueBatch now batchSize).foldl Memory.remove m) := by
  have hnodup : (db.dueBatch now batchSize).Nodup := by
    rw [dueBatch_natCast]
    exact (db.terminal.rangeByScore_nodup _).sublist (List.take_sublist ..)
  have hended : ∀ u ∈ db.dueBatch now batchSize, ∃ w, (m.row u).watch = some w ∧ w.status ≠ .active := by
    intro u hu
    rw [dueBatch_natCast] at hu
    obtain ⟨t, ht, -⟩ := (h.mem_range now u).mp (List.mem_of_mem_take hu)
    exact hretired u t ht
  obtain ⟨hcount, hmirrors⟩ := h.loop (db.dueBatch now batchSize) 0
  rw [Memory.foldl_cleanupOne hnodup 0 m hended] at hcount hmirrors
  exact ⟨hcount.trans (Nat.zero_add _), hmirrors⟩

/-- It reports that something remains when the batch does not reach the end of what is due. -/
theorem Mirrors.remaining {db : Redis} {m : Memory} (h : db.Mirrors m) (hretired : m.Retired) (now : Time)
    (batchSize : ℕ) :
    (db.cleanupDue now batchSize).1.remaining = true ↔
      batchSize < (db.terminal.rangeByScore (toMs now)).length := by
  have hafter := (h.cleanupDue hretired now batchSize).2
  have hreport : (db.cleanupDue now batchSize).1.remaining =
      !((db.cleanupDue now batchSize).2.terminal.rangeByScore (toMs now)).isEmpty := rfl
  -- What is left of the range is the range without the batch.
  have hleft : ∀ u, u ∈ (db.cleanupDue now batchSize).2.terminal.rangeByScore (toMs now) ↔
      u ∈ (db.terminal.rangeByScore (toMs now)).drop batchSize := by
    intro u
    have hrow := Memory.row_foldl_remove (db.dueBatch now batchSize) m u
    have hapart : u ∈ (db.terminal.rangeByScore (toMs now)).drop batchSize ↔
        u ∈ db.terminal.rangeByScore (toMs now) ∧ u ∉ db.dueBatch now batchSize := by
      have hnodup := db.terminal.rangeByScore_nodup (toMs now)
      rw [dueBatch_natCast]
      rw [← List.take_append_drop batchSize (db.terminal.rangeByScore (toMs now))] at hnodup
      conv_rhs => rw [← List.take_append_drop batchSize (db.terminal.rangeByScore (toMs now)), List.mem_append]
      rw [List.take_append_drop]
      have hdisjoint := List.disjoint_of_nodup_append hnodup
      constructor
      · exact fun hdrop => ⟨.inr hdrop, fun htake => hdisjoint htake hdrop⟩
      · exact fun ⟨hin, hout⟩ => hin.resolve_left hout
    rw [hapart, hafter.mem_range, h.mem_range]
    by_cases hu : u ∈ db.dueBatch now batchSize
    · rw [if_pos hu] at hrow
      have hgone : ((db.dueBatch now batchSize).foldl Memory.remove m).terminalDeleteAt.get? u = none :=
        congrArg Row.deadline hrow
      simp [hgone, hu]
    · rw [if_neg hu] at hrow
      have hkept : ((db.dueBatch now batchSize).foldl Memory.remove m).terminalDeleteAt.get? u =
          m.terminalDeleteAt.get? u := congrArg Row.deadline hrow
      simp [hkept, hu]
  rw [hreport, Bool.not_eq_true', ← Bool.not_eq_true, List.isEmpty_iff, List.eq_nil_iff_forall_not_mem]
  simp only [hleft]
  rw [← List.eq_nil_iff_forall_not_mem, List.drop_eq_nil_iff, not_le]

/-- `CLEANUP_DUE` reports what the in-memory cleanup reports and leaves the documents that it leaves. -/
def Agrees (db : Redis) (m : Memory) (now : Time) (batchSize : ℕ) : Prop :=
  (db.cleanupDue now batchSize).1 = (m.cleanupDue now batchSize).1 ∧
    ∀ u, (db.cleanupDue now batchSize).2.watches.get? u = (m.cleanupDue now batchSize).2.watches.get? u

/-- A document is left when its id is not in the batch. -/
theorem watches_foldl_remove (batch : List String) (m : Memory) (u : String) :
    (batch.foldl Memory.remove m).watches.get? u = if u ∈ batch then none else m.watches.get? u := by
  have hrow := congrArg Row.watch (Memory.row_foldl_remove batch m u)
  have hread : (batch.foldl Memory.remove m).watches.get? u = ((batch.foldl Memory.remove m).row u).watch := rfl
  rw [hread, hrow]
  split_ifs <;> rfl

/-- What is in the batch of either store has a document. -/
theorem Mirrors.document {db : Redis} {m : Memory} (h : db.Mirrors m) (hretired : m.Retired) {now : Time}
    {batchSize : ℕ} {u : String} (hu : u ∈ db.dueBatch now batchSize ∨ u ∈ m.batch now batchSize) :
    m.watches.get? u ≠ none := by
  have hdeadline : ∃ t, m.terminalDeleteAt.get? u = some t := by
    rcases hu with hu | hu
    · rw [dueBatch_natCast] at hu
      obtain ⟨t, ht, -⟩ := (h.mem_range now u).mp (List.mem_of_mem_take hu)
      exact ⟨t, ht⟩
    · obtain ⟨t, ht, -⟩ := Memory.mem_batch_due hu
      exact ⟨t, ht⟩
  obtain ⟨t, ht⟩ := hdeadline
  obtain ⟨w, hw, -⟩ := hretired u t ht
  have hdoc : m.watches.get? u = some w := hw
  rw [hdoc]
  exact Option.some_ne_none w

/-- The two cleanups agree when they take the same batch, and both leave something or neither does. -/
theorem agrees_iff {db : Redis} {m : Memory} (h : db.Mirrors m) (hretired : m.Retired) (now : Time)
    (batchSize : ℕ) :
    db.Agrees m now batchSize ↔ (∀ u, u ∈ db.dueBatch now batchSize ↔ u ∈ m.batch now batchSize) ∧
      (batchSize < (db.terminal.rangeByScore (toMs now)).length ↔ batchSize < (m.due now).length) := by
  obtain ⟨hstore, hremoved⟩ := Memory.cleanupDue_eq hretired now batchSize
  obtain ⟨hremoved', hafter⟩ := h.cleanupDue hretired now batchSize
  have hremaining : (m.cleanupDue now batchSize).1.remaining = true ↔ batchSize < (m.due now).length := by
    have hone := Memory.cleanups_remaining now batchSize 0 hretired
    rwa [Nat.zero_add, Nat.one_mul] at hone
  have hremaining' := h.remaining hretired now batchSize
  -- The documents that each cleanup leaves.
  have hdocs : ∀ u, (m.cleanupDue now batchSize).2.watches.get? u =
      if u ∈ m.batch now batchSize then none else m.watches.get? u := by
    intro u
    rw [hstore, watches_foldl_remove]
  have hdocs' : ∀ u, (db.cleanupDue now batchSize).2.watches.get? u =
      if u ∈ db.dueBatch now batchSize then none else m.watches.get? u := by
    intro u
    rw [hafter.watches, watches_foldl_remove]
  constructor
  · rintro ⟨hresult, hsame⟩
    refine ⟨fun u => ?_, ?_⟩
    · have hu := hsame u
      rw [hdocs, hdocs'] at hu
      constructor
      · intro hin
        by_contra hout
        rw [if_pos hin, if_neg hout] at hu
        exact h.document hretired (.inl hin) hu.symm
      · intro hin
        by_contra hout
        rw [if_neg hout, if_pos hin] at hu
        exact h.document hretired (.inr hin) hu
    · rw [← hremaining, ← hremaining', hresult]
  · rintro ⟨hsame, hleft⟩
    refine ⟨?_, fun u => ?_⟩
    · have hnodup : (db.dueBatch now batchSize).Nodup := by
        rw [dueBatch_natCast]
        exact (db.terminal.rangeByScore_nodup _).sublist (List.take_sublist ..)
      have hperm := (List.perm_ext_iff_of_nodup hnodup (m.batch_nodup now batchSize)).mpr hsame
      have hcount : (db.cleanupDue now batchSize).1.removed = (m.cleanupDue now batchSize).1.removed := by
        rw [hremoved, hremoved', hperm.length_eq]
      have hmore : (db.cleanupDue now batchSize).1.remaining = (m.cleanupDue now batchSize).1.remaining := by
        rw [Bool.eq_iff_iff, hremaining, hremaining', hleft]
      exact congrArg₂ CleanupResult.mk hcount hmore
    · rw [hdocs, hdocs', if_congr (hsame u) rfl rfl]

/-- What is due by the deadlines is due by their milliseconds. -/
theorem Mirrors.due_subset {db : Redis} {m : Memory} (h : db.Mirrors m) {now : Time} {u : String}
    (hu : u ∈ (m.due now).map Prod.fst) : u ∈ db.terminal.rangeByScore (toMs now) := by
  obtain ⟨e, he, rfl⟩ := List.mem_map.mp hu
  obtain ⟨ht, hdue⟩ := (m.mem_due now e.1 e.2).mp he
  exact (h.mem_range now e.1).mpr ⟨e.2, ht, toMs_mono hdue⟩

theorem Mirrors.length_due_le {db : Redis} {m : Memory} (h : db.Mirrors m) (now : Time) :
    (m.due now).length ≤ (db.terminal.rangeByScore (toMs now)).length := by
  have hsub := List.subperm_of_subset (m.due_nodup now) fun u hu => h.due_subset hu
  rw [← List.length_map Prod.fst]
  exact hsub.length_le

/-- Where no more is due by the milliseconds, as many are. -/
theorem Mirrors.length_due_eq {db : Redis} {m : Memory} (h : db.Mirrors m) {now : Time}
    (hdue : ∀ v t, m.terminalDeleteAt.get? v = some t → toMs t ≤ toMs now → t ≤ now) :
    (db.terminal.rangeByScore (toMs now)).length = (m.due now).length := by
  refine le_antisymm ?_ (h.length_due_le now)
  have hkeys : ((m.due now).map Prod.fst).length = (m.due now).length := List.length_map _
  rw [← hkeys]
  refine (List.subperm_of_subset (db.terminal.rangeByScore_nodup _) fun u hu => ?_).length_le
  obtain ⟨t, ht, hle⟩ := (h.mem_range now u).mp hu
  exact List.mem_map.mpr ⟨(u, t), (m.mem_due now u t).mpr ⟨ht, hdue u t ht hle⟩, rfl⟩

/-- Where the milliseconds tell the batch from the rest, both stores take it. -/
theorem agrees_of_ordered {db : Redis} {m : Memory} (h : db.Mirrors m) (hretired : m.Retired) {now : Time}
    (hdistinct : m.Distinct now) {batchSize : ℕ} (hordered : m.OrderedByMs now batchSize) :
    db.Agrees m now batchSize := by
  have hlengths : (db.terminal.rangeByScore (toMs now)).length = (m.due now).length ∨
      batchSize < (m.due now).length := by
    by_cases hfull : batchSize < (m.due now).length
    · exact .inr hfull
    · exact .inl (h.length_due_eq fun v t ht hle => (hordered.due v t ht hle).resolve_right hfull)
  have hmore := h.length_due_le now
  have hperm : (m.batch now batchSize).Perm (db.dueBatch now batchSize) := by
    rw [dueBatch_natCast]
    refine Dict.take_rangeByScore_perm _ (m.batch_nodup now batchSize) (fun u hu => ?_) ?_ ?_
    · exact h.due_subset (List.mem_of_mem_take hu)
    · rw [Memory.batch, List.length_take, List.length_map]
      omega
    · intro u hu v hv hout s s' hs hs'
      rw [h.terminal] at hs hs'
      obtain ⟨t, ht, rfl⟩ := Option.map_eq_some_iff.mp hs
      obtain ⟨t', ht', rfl⟩ := Option.map_eq_some_iff.mp hs'
      obtain ⟨hdue, hearly⟩ := (Memory.mem_batch_iff hdistinct batchSize ht).mp hu
      have hout' := (Memory.mem_batch_iff hdistinct batchSize ht').not.mp hout
      obtain ⟨t'', ht'', hrange⟩ := (h.mem_range now v).mp hv
      obtain rfl := Option.some.inj (ht'.symm.trans ht'')
      -- What is not in the batch is later.
      have hlater : t < t' := by
        rcases lt_trichotomy t t' with hlt | heq | hgt
        · exact hlt
        · rw [heq] at ht hdue
          exact absurd (hdistinct u v t' ht ht' hdue ▸ hu) hout
        · exact absurd ⟨hgt.le.trans hdue, (m.earlier_mono hgt.le).trans_lt hearly⟩ hout'
      refine Prod.Lex.toLex_le_toLex.mpr ?_
      rcases (toMs_mono hlater.le).lt_or_eq with hlt | heq
      · exact .inl hlt
      · refine .inr ⟨heq, not_lt.mp fun hname => hout' ?_⟩
        exact hordered.order u v t t' ht ht' hlater hdue heq hrange hname hearly
  refine (agrees_iff h hretired now batchSize).mpr ⟨fun u => hperm.mem_iff.symm, ?_⟩
  rcases hlengths with heq | hfull
  · rw [heq]
  · exact iff_of_true (hfull.trans_le hmore) hfull

/-- And only there. -/
theorem ordered_of_agrees {db : Redis} {m : Memory} (h : db.Mirrors m) (hretired : m.Retired) {now : Time}
    (hdistinct : m.Distinct now) {batchSize : ℕ} (hagrees : db.Agrees m now batchSize) :
    m.OrderedByMs now batchSize := by
  obtain ⟨hsame, hleft⟩ := (agrees_iff h hretired now batchSize).mp hagrees
  simp only [dueBatch_natCast] at hsame
  constructor
  · intro v t ht hle
    by_cases hfull : batchSize < (m.due now).length
    · exact .inr hfull
    · -- The batch takes all that is due by the milliseconds.
      have hall := List.take_of_length_le (not_lt.mp (hleft.not.mpr hfull))
      have hin : v ∈ m.batch now batchSize := (hsame v).mp (hall.symm ▸ (h.mem_range now v).mpr ⟨t, ht, hle⟩)
      exact .inl ((Memory.mem_batch_iff hdistinct batchSize ht).mp hin).1
  · intro u v t t' ht ht' hlater hdue heq hrange hname hearly
    refine (Memory.mem_batch_iff hdistinct batchSize ht').mp ((hsame v).mp ?_)
    have hu := (hsame u).mpr ((Memory.mem_batch_iff hdistinct batchSize ht).mpr ⟨hdue, hearly⟩)
    have hv := (h.mem_range now v).mpr ⟨t', ht', hrange⟩
    rw [← List.take_append_drop batchSize (db.terminal.rangeByScore (toMs now)), List.mem_append] at hv
    refine hv.resolve_right fun hdrop => ?_
    have hscore : db.terminal.get? u = some (toMs t) := by rw [h.terminal, ht]; rfl
    have hscore' : db.terminal.get? v = some (toMs t') := by rw [h.terminal, ht']; rfl
    have hrank := db.terminal.rank_le_of_mem_take hu hscore hdrop hscore'
    rcases Prod.Lex.toLex_le_toLex.mp hrank with hlt | ⟨-, hle⟩
    · exact absurd heq hlt.ne
    · exact absurd hname (not_lt.mpr hle)

end Redis

/-! ## The cleanups of a store -/

/-- The number of batches that a number of entries fills. -/
theorem batches_spec {d batchSize : ℕ} (hd : 1 ≤ d) (hsize : 1 ≤ batchSize) :
    1 ≤ (d + batchSize - 1) / batchSize ∧ d ≤ (d + batchSize - 1) / batchSize * batchSize ∧
      ∀ n, n < (d + batchSize - 1) / batchSize → n * batchSize < d := by
  refine ⟨?_, ?_, fun n hn => ?_⟩
  · rw [Nat.le_div_iff_mul_le hsize]
    omega
  · have hdivide := Nat.div_add_mod (d + batchSize - 1) batchSize
    have hrest := Nat.mod_lt (d + batchSize - 1) hsize
    rw [Nat.mul_comm batchSize] at hdivide
    omega
  · have hfull := (Nat.le_div_iff_mul_le hsize).mp (Nat.succ_le_of_lt hn)
    rw [Nat.succ_mul] at hfull
    omega

/-- Bounded cleanup is safe and drains. In every store that the protocol reaches a cleanup removes a batch of
finished watches whose time is over, oldest first, and nothing else; `⌈d / batchSize⌉` cleanups remove what `d`
due entries stand for, and the last of them is the first to report that nothing remains. If no two due deadlines
are equal, `CLEANUP_DUE` does the same on a database that mirrors the store exactly where the milliseconds tell
the batch from the other deadlines. -/
theorem cleanup_drains {s : Store} (hs : (storeMachine fun _ _ => True).Reach s) (now : Time) {batchSize : ℕ}
    (hsize : 1 ≤ batchSize) :
    (∃ batch, Memory.CleanedUp s.mem now batchSize (s.mem.cleanupDue now batchSize).1
      (s.mem.cleanupDue now batchSize).2 batch) ∧
    (∀ d, d = (s.mem.terminalDeleteAt.entries.filter fun e => decide (e.2 ≤ now)).length → 1 ≤ d →
      let last := (d + batchSize - 1) / batchSize
      (∀ n, 1 ≤ n → n < last →
        ((Memory.cleanups now batchSize (n - 1) s.mem).cleanupDue now batchSize).1.remaining = true) ∧
      ((Memory.cleanups now batchSize (last - 1) s.mem).cleanupDue now batchSize).1.remaining = false ∧
      ∀ u w t, (Memory.cleanups now batchSize last s.mem).watches.get? u = some w →
        w.status.isTerminal = true →
        (Memory.cleanups now batchSize last s.mem).terminalDeleteAt.get? u = some t → now < t) ∧
    (s.mem.Distinct now → ∀ db : Redis, db.Mirrors s.mem →
      (db.Agrees s.mem now batchSize ↔ s.mem.OrderedByMs now batchSize)) := by
  have hretired := Memory.retired_of_reach hs
  refine ⟨⟨_, Memory.cleanedUp hretired now batchSize⟩, ?_, fun hdistinct db hmirrors => ?_⟩
  · rintro d rfl hd
    have hlength : (s.mem.due now).length =
        (s.mem.terminalDeleteAt.entries.filter fun e => decide (e.2 ≤ now)).length := List.length_mergeSort _
    rw [← hlength] at hd ⊢
    obtain ⟨hpos, hreach, hbefore⟩ := batches_spec hd hsize
    refine ⟨fun n hn hlt => ?_, ?_, fun u w t hw hterminal ht => ?_⟩
    · rw [Memory.cleanups_remaining now batchSize (n - 1) hretired, Nat.sub_add_cancel hn]
      exact hbefore n hlt
    · rw [← Bool.not_eq_true, Memory.cleanups_remaining now batchSize _ hretired, Nat.sub_add_cancel hpos]
      exact not_lt.mpr hreach
    · by_contra hdue
      have hin := (Memory.mem_due _ now u t).mpr ⟨ht, not_lt.mp hdue⟩
      rw [Memory.due_cleanups now batchSize _ hretired, List.drop_eq_nil_of_le hreach] at hin
      contradiction
  · exact ⟨Redis.ordered_of_agrees hmirrors hretired hdistinct, Redis.agrees_of_ordered hmirrors hretired hdistinct⟩

/-- Where the milliseconds are exact, they tell every deadline from every other one. -/
theorem Memory.orderedByMs {m : Memory} {now : Time} (hnow : toMs now * 1000 = now)
    (hexact : ∀ u t, m.terminalDeleteAt.get? u = some t → toMs t * 1000 = t) (batchSize : ℕ) :
    m.OrderedByMs now batchSize where
  due v t ht hle := by
    refine .inl ?_
    calc t = toMs t * 1000 := (hexact v t ht).symm
      _ ≤ toMs now * 1000 := Int.mul_le_mul_of_nonneg_right hle (by decide)
      _ = now := hnow
  order u v t t' ht ht' hlater _ heq := by
    have hsame : t = t' := by rw [← hexact u t ht, ← hexact v t' ht', heq]
    exact absurd hsame hlater.ne

/-- The documents and the deadlines of a store. -/
def Memory.mirrored (m : Memory) : Redis :=
  { Redis.empty with watches := m.watches, terminal := m.terminalDeleteAt.map toMs }

theorem Memory.mirrored_mirrors (m : Memory) : m.mirrored.Mirrors m :=
  ⟨fun _ => rfl, fun u => m.terminalDeleteAt.get?_map toMs u⟩

/-- Two watches that are cancelled a millisecond apart. -/
def endedAt (retention : Duration) (first : Time) : Store :=
  (storeMachine fun _ _ => True).final ⟨Memory.empty retention, first, []⟩
    [.call (.create (Watch.sample "v" true 3000000000000000 5)
        (initialRuntime (Watch.sample "v" true 3000000000000000 5) 5 true none)),
      .call (.create (Watch.sample "w" true 3000000000000000 5)
        (initialRuntime (Watch.sample "w" true 3000000000000000 5) 5 true none)),
      .call (.cancel "v"), .tick (first + 1000), .call (.cancel "w")]

theorem endedAt_reach (retention : Duration) (first : Time) :
    (storeMachine fun _ _ => True).Reach (endedAt retention first) := by
  have h0 : (storeMachine fun _ _ => True).Reach ⟨Memory.empty retention, first, []⟩ := .init ⟨retention, rfl, rfl⟩
  refine h0.final ⟨trivial, trivial, trivial, ?_, trivial, trivial⟩
  exact le_add_of_nonneg_right (by decide : (0 : ℤ) ≤ 1000)

theorem endedAt_deadline {retention first : ℤ} {u : String} {t : ℤ}
    (h : (endedAt retention first).mem.terminalDeleteAt.get? u = some t) :
    u = "v" ∧ t = first + retention ∨ u = "w" ∧ t = first + 1000 + retention := by
  have hentries : (endedAt retention first).mem.terminalDeleteAt.entries =
      [("v", first + retention), ("w", first + 1000 + retention)] := by rfl
  rw [Dict.get?_eq_some_iff, hentries] at h
  simpa using h

theorem endedAt_distinct (retention first : ℤ) (now : Time) : (endedAt retention first).mem.Distinct now := by
  intro u v t hu hv _
  rcases endedAt_deadline hu with ⟨rfl, ht⟩ | ⟨rfl, ht⟩
  · rcases endedAt_deadline hv with ⟨rfl, -⟩ | ⟨-, ht'⟩
    · rfl
    · omega
  · rcases endedAt_deadline hv with ⟨-, ht'⟩ | ⟨rfl, -⟩
    · omega
    · rfl

/-- One hour after two cancellations the watches take two cleanups, and Redis reports the same. -/
theorem cleanup_drains_ended :
    ((Memory.cleanups 1700003600002000 1 1 (endedAt 3600000000 1700000000000000).mem).cleanupDue
        1700003600002000 1).1.remaining = false ∧
      (endedAt 3600000000 1700000000000000).mem.mirrored.Agrees
        (endedAt 3600000000 1700000000000000).mem 1700003600002000 1 := by
  obtain ⟨-, hdrains, hredis⟩ := cleanup_drains (endedAt_reach 3600000000 1700000000000000) 1700003600002000
    (Nat.le_refl 1)
  refine ⟨(hdrains 2 (by decide +kernel) (by decide)).2.1, ?_⟩
  refine (hredis (endedAt_distinct _ _ _) _ (Memory.mirrored_mirrors _)).mpr ?_
  have hexact : ∀ ms : ℤ, 2 ^ 40 < ms → ms < 2 ^ 31 * 1000 → toMs (ms * 1000) * 1000 = ms * 1000 :=
    fun ms hlow hhigh => congrArg (· * 1000) (toMs_millisecond hlow hhigh)
  refine Memory.orderedByMs (hexact 1700003600002 (by decide) (by decide)) (fun u t ht => ?_) 1
  rcases endedAt_deadline ht with ⟨-, rfl⟩ | ⟨-, rfl⟩
  · exact hexact 1700003600000 (by decide) (by decide)
  · exact hexact 1700003600001 (by decide) (by decide)

/-- An instant on a whole millisecond. -/
def WholeMs (t : Time) : Prop := ∃ ms : ℤ, t = ms * 1000

/-- After 2038-01-19 two milliseconds can be one: a deadline is a millisecond away, and `CLEANUP_DUE` takes it
as due. -/
theorem cleanup_disagrees : ¬ ∀ s, (storeMachine fun _ _ => True).Reach s → ∀ now, ∀ batchSize, 1 ≤ batchSize →
    ∀ db : Redis, db.Mirrors s.mem → WholeMs now →
      (∀ u t, s.mem.terminalDeleteAt.get? u = some t → WholeMs t) → s.mem.Distinct now →
      db.Agrees s.mem now batchSize := by
  intro h
  have hagrees := h _ (endedAt_reach 3600000000 2147480048001000) 2147483648001000 10 (by decide) _
    (Memory.mirrored_mirrors _) ⟨2147483648001, by decide⟩ (fun u t ht => ?_) (endedAt_distinct _ _ _)
  · exact absurd hagrees.1 (by decide +kernel)
  · rcases endedAt_deadline ht with ⟨-, rfl⟩ | ⟨-, rfl⟩
    · exact ⟨2147483648001, by decide⟩
    · exact ⟨2147483648002, by decide⟩

end Dibs
