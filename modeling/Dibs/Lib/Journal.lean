import Mathlib.Data.Set.Function
import Dibs.Lib.Dict

/-!
# Journals

A journal lists what happened, newest first. `Each` is a fact about every entry of a journal together with the
entries before it, so that "nothing is done that was not asked for before" is one.

A store may keep values under digests of its keys, so that it does not hold the keys. `latest` is the store
without digests: the newest write of a key, deletions included, in a journal of writes. While no two of the keys
in play have one digest, the store answers every one of them as the journal does (`Represents`), and each
operation keeps this.
-/

namespace Dibs

/-! ## Facts about entries -/

section Each

variable {ε : Type*} {P Q : ε → List ε → Prop}

/-- A fact about each entry and those before it. -/
def Each (P : ε → List ε → Prop) : List ε → Prop
  | [] => True
  | e :: older => P e older ∧ Each P older

/-- The fact holds wherever the journal is split at an entry. -/
theorem Each.at {newer older : List ε} {e : ε} (h : Each P (newer ++ e :: older)) : P e older := by
  induction newer with
  | nil => exact h.1
  | cons _ newer ih => exact ih h.2

/-- Entries of which the fact holds can be added. -/
theorem Each.append {newer older : List ε} (h : Each P older)
    (hnewer : ∀ e ∈ newer, ∀ before, P e before) : Each P (newer ++ older) := by
  induction newer with
  | nil => exact h
  | cons e newer ih =>
    exact ⟨hnewer e List.mem_cons_self _, ih fun e' he' => hnewer e' (List.mem_cons_of_mem _ he')⟩

end Each

/-- A journal in which no value of an entry comes twice has one entry for it. -/
theorem eq_of_nodup_filterMap {ε β : Type*} {f : ε → Option β} {journal : List ε}
    (h : (journal.filterMap f).Nodup) {e e' : ε} (he : e ∈ journal) (he' : e' ∈ journal) {b : β}
    (hb : f e = some b) (hb' : f e' = some b) : e = e' := by
  induction journal with
  | nil => cases he
  | cons x older ih =>
    have hrest : (older.filterMap f).Nodup :=
      h.sublist ((List.sublist_cons_self x older).filterMap f)
    -- The value of the newest entry does not come again.
    have hnewest : ∀ y ∈ older, f x = some b → f y ≠ some b := by
      intro y hy hx hy'
      rw [List.filterMap_cons_some hx] at h
      exact (List.nodup_cons.mp h).1 (List.mem_filterMap.mpr ⟨y, hy, hy'⟩)
    rcases List.mem_cons.mp he with rfl | hold
    · rcases List.mem_cons.mp he' with rfl | hold'
      · rfl
      · exact absurd hb' (hnewest e' hold' hb)
    · rcases List.mem_cons.mp he' with rfl | hold'
      · exact absurd hb (hnewest e hold hb')
      · exact ih hrest hold hold'

/-! ## Stores keyed by a digest -/

variable {κ δ α : Type*} [DecidableEq κ] [DecidableEq δ]

/-- What was written last under a key, in a log of writes, newest first. Writing `none` deletes. -/
def latest : List (κ × Option α) → κ → Option α
  | [], _ => none
  | (k', v) :: older, k => if k' = k then v else latest older k

/-- The value of a key was written. -/
theorem mem_of_latest {log : List (κ × Option α)} {k : κ} {v : α} (h : latest log k = some v) :
    (k, some v) ∈ log := by
  induction log with
  | nil => cases h
  | cons e older ih =>
    obtain ⟨k', w⟩ := e
    rw [latest] at h
    split_ifs at h with hk
    · subst hk
      rw [h]
      exact List.mem_cons_self
    · exact List.mem_cons_of_mem _ (ih h)

/-- The store answers the keys in play as the log does. -/
def Represents (digest : κ → δ) (store : Dict δ α) (keys : Set κ) (log : List (κ × Option α)) : Prop :=
  ∀ k ∈ keys, store.get? (digest k) = latest log k

namespace Represents

variable {digest : κ → δ} {store : Dict δ α} {keys keys' : Set κ} {log : List (κ × Option α)}

/-- The empty store represents the empty log. -/
theorem empty : Represents digest (Dict.empty : Dict δ α) keys [] := fun _ _ => rfl

/-- Fewer keys are represented as well. -/
theorem mono (h : Represents digest store keys log) (hkeys : keys' ⊆ keys) :
    Represents digest store keys' log := fun k hk => h k (hkeys hk)

/-- Storing under the digest of a key is a write. -/
theorem insert (h : Represents digest store keys log) (hdigest : Set.InjOn digest keys) {k : κ}
    (hk : k ∈ keys) (v : α) :
    Represents digest (store.insert (digest k) v) keys ((k, some v) :: log) := by
  intro k' hk'
  by_cases heq : k = k'
  · subst heq
    rw [Dict.get?_insert_self, latest, if_pos rfl]
  · have hne : digest k ≠ digest k' := fun hd => heq (hdigest hk hk' hd)
    rw [Dict.get?_insert_ne _ _ hne, latest, if_neg heq]
    exact h k' hk'

/-- Erasing the digest of a key is a deletion. -/
theorem erase (h : Represents digest store keys log) (hdigest : Set.InjOn digest keys) {k : κ}
    (hk : k ∈ keys) :
    Represents digest (store.erase (digest k)) keys ((k, none) :: log) := by
  intro k' hk'
  by_cases heq : k = k'
  · subst heq
    rw [Dict.get?_erase_self, latest, if_pos rfl]
  · have hne : digest k ≠ digest k' := fun hd => heq (hdigest hk hk' hd)
    rw [Dict.get?_erase_ne _ hne, latest, if_neg heq]
    exact h k' hk'

end Represents

end Dibs
