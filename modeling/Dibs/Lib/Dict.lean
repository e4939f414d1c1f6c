import Mathlib.Data.List.Nodup
import Mathlib.Data.List.Basic

/-!
# Insertion-ordered dictionaries

A `Dict` keeps its entries in the order in which their keys were first inserted, as Python's `dict`
does: storing under a present key replaces the value in place, storing under a new key appends, and
a key that is removed and stored again goes to the end. That no key occurs twice is a field of the
structure, so every dictionary that can be built has it.

Proofs about programs read dictionaries through `get?` only: `get?_insert` and `get?_erase` say what
each update does to every key.
-/

namespace Dibs

/-- A dictionary from `κ` to `α`: its entries in insertion order, with no key twice. -/
structure Dict (κ α : Type*) where
  /-- The entries, oldest key first. -/
  entries : List (κ × α)
  /-- No key occurs twice. -/
  nodup : (entries.map Prod.fst).Nodup
deriving DecidableEq

namespace Dict

variable {κ α : Type*} [DecidableEq κ]

/-- The value under a key in a list of entries: that of its first entry with the key. -/
def lookup : List (κ × α) → κ → Option α
  | [], _ => none
  | (k', v) :: l, k => if k' = k then some v else lookup l k

/-- Replace the value of the entry with key `k`, or append one. -/
def put : List (κ × α) → κ → α → List (κ × α)
  | [], k, v => [(k, v)]
  | (k', v') :: l, k, v => if k' = k then (k', v) :: l else (k', v') :: put l k v

/-- Reading after `put`. -/
theorem lookup_put (l : List (κ × α)) (k : κ) (v : α) (k' : κ) :
    lookup (put l k v) k' = if k = k' then some v else lookup l k' := by
  induction l with
  | nil => simp [put, lookup]
  | cons e l ih =>
    obtain ⟨k₀, v₀⟩ := e
    by_cases h : k₀ = k
    · subst h
      by_cases h' : k₀ = k' <;> simp [put, lookup, h']
    · by_cases h' : k₀ = k'
      · subst h'
        have hk : ¬ k = k₀ := fun e => h e.symm
        simp [put, lookup, h, hk]
      · simp [put, lookup, h, h', ih]

/-- Reading after the entries of one key are filtered out. -/
theorem lookup_filter (l : List (κ × α)) (k k' : κ) :
    lookup (l.filter fun e => !decide (e.1 = k)) k' = if k = k' then none else lookup l k' := by
  induction l with
  | nil => simp [lookup]
  | cons e l ih =>
    obtain ⟨k₀, v₀⟩ := e
    by_cases h : k₀ = k
    · subst h
      rw [List.filter_cons_of_neg (by simp), ih]
      by_cases h' : k₀ = k'
      · simp [h']
      · simp [lookup, h']
    · rw [List.filter_cons_of_pos (by simpa using h)]
      by_cases h' : k₀ = k'
      · subst h'
        have hk : ¬ k = k₀ := fun e => h e.symm
        simp [lookup, hk]
      · simpa [lookup, h'] using ih

/-- The keys after `put`: those before, and `k`. -/
theorem mem_keys_put (l : List (κ × α)) (k : κ) (v : α) (k' : κ) :
    k' ∈ (put l k v).map Prod.fst ↔ k' = k ∨ k' ∈ l.map Prod.fst := by
  induction l with
  | nil => simp [put]
  | cons e l ih =>
    obtain ⟨k₀, v₀⟩ := e
    by_cases h : k₀ = k
    · subst h
      simp [put]
    · simp only [put, if_neg h, List.map_cons, List.mem_cons, ih]
      tauto

/-- `put` keeps the keys distinct. -/
theorem nodup_put {l : List (κ × α)} (h : (l.map Prod.fst).Nodup) (k : κ) (v : α) :
    ((put l k v).map Prod.fst).Nodup := by
  induction l with
  | nil => simp [put]
  | cons e l ih =>
    obtain ⟨k₀, v₀⟩ := e
    obtain ⟨h₀, hl⟩ := List.nodup_cons.mp h
    by_cases hk : k₀ = k
    · subst hk
      simpa [put] using h
    · simp only [put, if_neg hk, List.map_cons]
      refine List.nodup_cons.mpr ⟨fun hm => ?_, ih hl⟩
      rcases (mem_keys_put l k v k₀).mp hm with h' | h'
      · exact hk h'
      · exact h₀ h'

/-- The dictionary with no entries. -/
def empty : Dict κ α := ⟨[], List.nodup_nil⟩

/-- `d.get(k)`: the value under a key, if it is present. -/
def get? (d : Dict κ α) (k : κ) : Option α := lookup d.entries k

/-- `d[k] = v`. -/
def insert (d : Dict κ α) (k : κ) (v : α) : Dict κ α :=
  ⟨put d.entries k v, nodup_put d.nodup k v⟩

/-- `d.pop(k, None)`. -/
def erase (d : Dict κ α) (k : κ) : Dict κ α :=
  ⟨d.entries.filter fun e => !decide (e.1 = k), d.nodup.sublist (List.filter_sublist.map Prod.fst)⟩

/-- `{k: v for k, v in d.items() if p(k, v)}`. -/
def filter (d : Dict κ α) (p : κ → α → Bool) : Dict κ α :=
  ⟨d.entries.filter fun e => p e.1 e.2, d.nodup.sublist (List.filter_sublist.map Prod.fst)⟩

/-- `len(d)`. -/
def size (d : Dict κ α) : ℕ := d.entries.length

/-- `k in d`. -/
def contains (d : Dict κ α) (k : κ) : Bool := (d.get? k).isSome

/-- Change every value. -/
def map (d : Dict κ α) (f : α → α) : Dict κ α :=
  ⟨d.entries.map fun e => (e.1, f e.2), by simpa [List.map_map, Function.comp_def] using d.nodup⟩

@[simp]
theorem get?_empty (k : κ) : (empty : Dict κ α).get? k = none := rfl

/-- Reading any key after a store. -/
theorem get?_insert (d : Dict κ α) (k : κ) (v : α) (k' : κ) :
    (d.insert k v).get? k' = if k = k' then some v else d.get? k' := lookup_put d.entries k v k'

/-- Reading any key after a removal. -/
theorem get?_erase (d : Dict κ α) (k k' : κ) :
    (d.erase k).get? k' = if k = k' then none else d.get? k' := lookup_filter d.entries k k'

/-- A key that no entry has is not found. -/
theorem lookup_eq_none {l : List (κ × α)} {k : κ} (h : k ∉ l.map Prod.fst) : lookup l k = none := by
  induction l with
  | nil => rfl
  | cons e l ih =>
    rw [List.map_cons, List.mem_cons, not_or] at h
    rw [lookup, if_neg (Ne.symm h.1), ih h.2]

/-- A key is found with a value exactly when the pair is an entry. -/
theorem get?_eq_some_iff (d : Dict κ α) {k : κ} {v : α} : d.get? k = some v ↔ (k, v) ∈ d.entries := by
  obtain ⟨l, hl⟩ := d
  change lookup l k = some v ↔ (k, v) ∈ l
  induction l with
  | nil => simp [lookup]
  | cons e l ih =>
    obtain ⟨k₀, v₀⟩ := e
    obtain ⟨h₀, hl⟩ := List.nodup_cons.mp hl
    by_cases hk : k₀ = k
    · subst hk
      have hn : (k₀, v) ∉ l := fun hm => h₀ (List.mem_map.mpr ⟨_, hm, rfl⟩)
      simp [lookup, hn, eq_comm]
    · simp [lookup, hk, ih hl, Ne.symm hk]

/-- Reading any key after entries are filtered. -/
theorem get?_filter (d : Dict κ α) (p : κ → α → Bool) (k : κ) :
    (d.filter p).get? k = (d.get? k).filter (p k) := by
  obtain ⟨l, hl⟩ := d
  change lookup (l.filter fun e => p e.1 e.2) k = (lookup l k).filter (p k)
  induction l with
  | nil => rfl
  | cons e l ih =>
    obtain ⟨k₀, v⟩ := e
    obtain ⟨h₀, hl⟩ := List.nodup_cons.mp hl
    by_cases hk : k₀ = k
    · subst hk
      by_cases hp : p k₀ v = true
      · simp [lookup, hp, Option.filter]
      · have hnone : lookup (l.filter fun e => p e.1 e.2) k₀ = none :=
          lookup_eq_none fun hm => h₀ ((List.filter_sublist.map Prod.fst).subset hm)
        simp [lookup, hp, hnone, Option.filter]
    · by_cases hp : p k₀ v = true
      · simp [lookup, hp, hk, ih hl]
      · simp [lookup, hp, hk, ih hl]

@[simp]
theorem get?_insert_self (d : Dict κ α) (k : κ) (v : α) : (d.insert k v).get? k = some v := by
  rw [get?_insert, if_pos rfl]

/-- Storing under `k` leaves every other key alone. -/
theorem get?_insert_ne (d : Dict κ α) {k k' : κ} (v : α) (h : k ≠ k') :
    (d.insert k v).get? k' = d.get? k' := by
  rw [get?_insert, if_neg h]

@[simp]
theorem get?_erase_self (d : Dict κ α) (k : κ) : (d.erase k).get? k = none := by
  rw [get?_erase, if_pos rfl]

/-- Removing `k` leaves every other key alone. -/
theorem get?_erase_ne (d : Dict κ α) {k k' : κ} (h : k ≠ k') :
    (d.erase k).get? k' = d.get? k' := by
  rw [get?_erase, if_neg h]

theorem get?_map (d : Dict κ α) (f : α → α) (k : κ) : (d.map f).get? k = (d.get? k).map f := by
  obtain ⟨entries, nodup⟩ := d
  simp only [map, get?]
  clear nodup
  induction entries with
  | nil => rfl
  | cons e l ih =>
    simp only [List.map_cons, lookup]
    split
    · rfl
    · exact ih

/-- The keys of the entries are those that are found. -/
theorem mem_keys_iff (d : Dict κ α) (k : κ) : k ∈ d.entries.map Prod.fst ↔ (d.get? k).isSome := by
  rw [Option.isSome_iff_exists]
  constructor
  · intro hk
    obtain ⟨e, he, rfl⟩ := List.mem_map.mp hk
    exact ⟨e.2, d.get?_eq_some_iff.mpr he⟩
  · rintro ⟨v, hv⟩
    exact List.mem_map.mpr ⟨_, d.get?_eq_some_iff.mp hv, rfl⟩

/-- Dictionaries with the same keys have the same size. -/
theorem size_eq_of_keys {β : Type*} {d : Dict κ α} {d' : Dict κ β}
    (h : ∀ k, (d.get? k).isSome ↔ (d'.get? k).isSome) : d.size = d'.size := by
  have hperm : (d.entries.map Prod.fst).Perm (d'.entries.map Prod.fst) := by
    rw [List.perm_ext_iff_of_nodup d.nodup d'.nodup]
    intro k
    rw [mem_keys_iff, mem_keys_iff, h]
  have hlength := hperm.length_eq
  rwa [List.length_map, List.length_map] at hlength

/-- The length after `put`: one more for a new key. -/
theorem length_put (l : List (κ × α)) (k : κ) (v : α) :
    (put l k v).length = if k ∈ l.map Prod.fst then l.length else l.length + 1 := by
  induction l with
  | nil => rfl
  | cons e l ih =>
    obtain ⟨k₀, v₀⟩ := e
    by_cases h : k₀ = k
    · subst h
      simp [put]
    · simp only [put, if_neg h, List.length_cons, ih, List.map_cons, List.mem_cons, Ne.symm h, false_or]
      split <;> rfl

theorem size_insert (d : Dict κ α) (k : κ) (v : α) :
    (d.insert k v).size = if (d.get? k).isSome then d.size else d.size + 1 := by
  unfold size insert
  rw [length_put]
  simp only [mem_keys_iff]

theorem size_erase_le (d : Dict κ α) (k : κ) : (d.erase k).size ≤ d.size := List.length_filter_le _ _

/-- Removing a key that is there makes the dictionary smaller. -/
theorem size_erase_lt (d : Dict κ α) {k : κ} (h : (d.get? k).isSome) : (d.erase k).size < d.size := by
  obtain ⟨v, hv⟩ := Option.isSome_iff_exists.mp h
  refine List.length_filter_lt_length_iff_exists.mpr ⟨(k, v), d.get?_eq_some_iff.mp hv, ?_⟩
  simp

@[simp]
theorem contains_eq (d : Dict κ α) (k : κ) : d.contains k = (d.get? k).isSome := rfl

end Dict

end Dibs
