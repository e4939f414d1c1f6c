import Mathlib.Data.List.Sort
import Mathlib.Data.Prod.Lex
import Mathlib.Data.String.Basic
import Dibs.Lib.Dict

/-!
# Sorted sets

A sorted set is a dictionary from its members to their scores. Members are ranked by their scores, and
members with one score by their own order.
-/

namespace Dibs

namespace Dict

variable {κ σ : Type*}

/-- The rank of a member: its score first, then the member itself. -/
def rank (e : κ × σ) : σ ×ₗ κ := toLex (e.2, e.1)

/-- No two members have one rank. -/
theorem rank_injective : Function.Injective (rank : κ × σ → σ ×ₗ κ) := by
  rintro ⟨k, v⟩ ⟨k', v'⟩ h
  obtain ⟨rfl, rfl⟩ := Prod.mk.inj (toLex.injective h)
  rfl

variable [LinearOrder κ] [LinearOrder σ]

/-- The members and their scores, lowest rank first. -/
def ranked (d : Dict κ σ) : List (κ × σ) := d.entries.insertionSort fun a b => rank a ≤ rank b

/-- The members with a score up to `max`, lowest rank first. -/
def rangeByScore (d : Dict κ σ) (max : σ) : List κ :=
  (d.ranked.filter fun e => e.2 ≤ max).map Prod.fst

/-- The member of the lowest rank. -/
def first (d : Dict κ σ) : Option κ := d.ranked.head?.map Prod.fst

theorem ranked_perm (d : Dict κ σ) : d.ranked.Perm d.entries := List.perm_insertionSort ..

/-- A member occurs once. -/
theorem rangeByScore_nodup (d : Dict κ σ) (max : σ) : (d.rangeByScore max).Nodup := by
  have hranked : (d.ranked.map Prod.fst).Nodup := (d.ranked_perm.map Prod.fst).nodup_iff.mpr d.nodup
  exact hranked.sublist (List.filter_sublist.map Prod.fst)

variable [DecidableEq κ]

theorem mem_ranked (d : Dict κ σ) {k : κ} {v : σ} : (k, v) ∈ d.ranked ↔ d.get? k = some v := by
  rw [get?_eq_some_iff]
  exact d.ranked_perm.mem_iff

theorem mem_rangeByScore (d : Dict κ σ) {max : σ} {k : κ} :
    k ∈ d.rangeByScore max ↔ ∃ v, d.get? k = some v ∧ v ≤ max := by
  simp only [rangeByScore, List.mem_map, List.mem_filter, decide_eq_true_eq, Prod.exists,
    exists_and_right, exists_eq_right, mem_ranked]

/-- The first member ranks lowest. -/
theorem first_eq_some (d : Dict κ σ) {k : κ} (h : d.first = some k) :
    ∃ v, d.get? k = some v ∧ ∀ k' v', d.get? k' = some v' → rank (k, v) ≤ rank (k', v') := by
  obtain ⟨e, he, rfl⟩ := Option.map_eq_some_iff.mp h
  obtain ⟨rest, hranked⟩ := List.head?_eq_some_iff.mp he
  have hsorted : d.ranked.Pairwise fun a b => rank a ≤ rank b :=
    List.pairwise_insertionSort (fun a b : κ × σ => rank a ≤ rank b) d.entries
  refine ⟨e.2, d.mem_ranked.mp (hranked ▸ List.mem_cons_self), fun k' v' hk' => ?_⟩
  rw [hranked] at hsorted
  rcases List.mem_cons.mp (hranked ▸ d.mem_ranked.mpr hk') with heq | hmem
  · rw [← heq]
  · exact (List.pairwise_cons.mp hsorted).1 _ hmem

/-- Only an empty sorted set has no first member. -/
theorem first_eq_none_iff (d : Dict κ σ) : d.first = none ↔ ∀ k, d.get? k = none := by
  rw [first, Option.map_eq_none_iff, List.head?_eq_none_iff, List.eq_nil_iff_forall_not_mem]
  constructor
  · intro h k
    rw [Option.eq_none_iff_forall_ne_some]
    exact fun v hv => h (k, v) (d.mem_ranked.mpr hv)
  · rintro h ⟨k, v⟩ he
    have hv := d.mem_ranked.mp he
    rw [h k] at hv
    contradiction

/-- The first members of a range rank below the others. -/
theorem rank_le_of_mem_take (d : Dict κ σ) {max : σ} {n : ℕ} {x y : κ} {vx vy : σ}
    (hx : x ∈ (d.rangeByScore max).take n) (hvx : d.get? x = some vx)
    (hy : y ∈ (d.rangeByScore max).drop n) (hvy : d.get? y = some vy) : rank (x, vx) ≤ rank (y, vy) := by
  have hsorted : (d.ranked.filter fun e => e.2 ≤ max).Pairwise fun a b => rank a ≤ rank b :=
    (List.pairwise_insertionSort (fun a b : κ × σ => rank a ≤ rank b) d.entries).filter _
  rw [rangeByScore, ← List.map_take] at hx
  rw [rangeByScore, ← List.map_drop] at hy
  obtain ⟨a, ha, rfl⟩ := List.mem_map.mp hx
  obtain ⟨b, hb, rfl⟩ := List.mem_map.mp hy
  -- The scores are those of the entries.
  have hread : ∀ {e : κ × σ} {v : σ}, e ∈ d.ranked.filter (fun e => e.2 ≤ max) → d.get? e.1 = some v →
      (e.1, v) = e := by
    intro e v he hv
    have hentry := d.mem_ranked.mp (List.mem_of_mem_filter he)
    rw [hv] at hentry
    rw [Option.some.inj hentry]
  rw [hread (List.mem_of_mem_take ha) hvx, hread (List.mem_of_mem_drop hb) hvy]
  rw [← List.take_append_drop n (d.ranked.filter fun e => e.2 ≤ max)] at hsorted
  exact (List.pairwise_append.mp hsorted).2.2 a ha b hb

/-- A batch of members of a range that rank below the others consists of its first members. -/
theorem take_rangeByScore_perm (d : Dict κ σ) {max : σ} {n : ℕ} {batch : List κ} (hnodup : batch.Nodup)
    (hmem : ∀ k ∈ batch, k ∈ d.rangeByScore max)
    (hlength : batch.length = min n (d.rangeByScore max).length)
    (hlow : ∀ x ∈ batch, ∀ y ∈ d.rangeByScore max, y ∉ batch → ∀ vx vy, d.get? x = some vx →
      d.get? y = some vy → rank (x, vx) ≤ rank (y, vy)) :
    batch.Perm ((d.rangeByScore max).take n) := by
  have hnodup' : ((d.rangeByScore max).take n).Nodup := (d.rangeByScore_nodup max).sublist (List.take_sublist ..)
  have hlength' : ((d.rangeByScore max).take n).length = batch.length := by
    rw [List.length_take, hlength]
  refine ((List.subperm_of_subset hnodup' fun x hx => ?_).perm_of_length_le hlength'.ge).symm
  by_contra hout
  -- Then some member of the batch is not among the first ones either, and the two rank alike.
  obtain ⟨y, hy, hlate⟩ : ∃ y ∈ batch, y ∉ (d.rangeByScore max).take n := by
    by_contra hnone
    push Not at hnone
    have hperm := (List.subperm_of_subset hnodup hnone).perm_of_length_le hlength'.le
    exact hout (hperm.mem_iff.mpr hx)
  have hdrop : y ∈ (d.rangeByScore max).drop n := by
    have hrange := hmem y hy
    rw [← List.take_append_drop n (d.rangeByScore max), List.mem_append] at hrange
    exact hrange.resolve_left hlate
  obtain ⟨vx, hvx, -⟩ := d.mem_rangeByScore.mp (List.mem_of_mem_take hx)
  obtain ⟨vy, hvy, -⟩ := d.mem_rangeByScore.mp (hmem y hy)
  have hle := d.rank_le_of_mem_take hx hvx hdrop hvy
  have hge := hlow y hy x (List.mem_of_mem_take hx) hout vy vx hvy hvx
  obtain ⟨rfl, -⟩ := Prod.mk.inj (rank_injective (le_antisymm hle hge))
  exact hlate hx

end Dict

end Dibs
