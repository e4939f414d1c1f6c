import Mathlib.Data.List.Sort

/-!
# Cutting sorted lists

Python's `sort` is stable, as `List.mergeSort` is. Filtering commutes with a stable sort, so the
entries below a bound, sorted, begin the sorted list of all entries, and a batch that they fill is not
changed by the entries beyond the bound.
-/

namespace Dibs

namespace StableSort

variable {α : Type*} {le : α → α → Bool}

/-- Splitting a list by a test is unique. -/
theorem append_inj_of_test {p : α → Bool} {l₁ l₂ r₁ r₂ : List α} (h : l₁ ++ l₂ = r₁ ++ r₂)
    (hl₁ : ∀ a ∈ l₁, p a = true) (hl₂ : ∀ a ∈ l₂, p a = false)
    (hr₁ : ∀ a ∈ r₁, p a = true) (hr₂ : ∀ a ∈ r₂, p a = false) : l₁ = r₁ ∧ l₂ = r₂ := by
  have hfst : ∀ {s t : List α}, (∀ a ∈ s, p a = true) → (∀ a ∈ t, p a = false) →
      (s ++ t).filter p = s := by
    intro s t hs ht
    rw [List.filter_append, List.filter_eq_self.mpr hs,
      List.filter_eq_nil_iff.mpr fun a ha => by simp [ht a ha], List.append_nil]
  have hfirst : l₁ = r₁ := by
    rw [← hfst hl₁ hl₂, h, hfst hr₁ hr₂]
  subst hfirst
  exact ⟨rfl, List.append_cancel_left h⟩

/-- Filtering commutes with a stable sort. -/
theorem filter_mergeSort (trans : ∀ a b c, le a b = true → le b c = true → le a c = true)
    (total : ∀ a b, (le a b || le b a) = true) (p : α → Bool) (l : List α) :
    (l.mergeSort le).filter p = (l.filter p).mergeSort le := by
  induction l with
  | nil => simp
  | cons a l ih =>
    obtain ⟨l₁, l₂, hsort, hrest, hbefore⟩ := List.mergeSort_cons trans total a l
    have hafter : ∀ b ∈ l₂, le a b = true := by
      have hsorted := List.pairwise_mergeSort trans total (a :: l)
      rw [hsort] at hsorted
      exact (List.pairwise_cons.mp (List.pairwise_append.mp hsorted).2.1).1
    rw [hsort, List.filter_append]
    cases hp : p a with
    | false =>
      rw [List.filter_cons_of_neg (by simp [hp]), List.filter_cons_of_neg (by simp [hp]), ← ih, hrest,
        List.filter_append]
    | true =>
      rw [List.filter_cons_of_pos hp, List.filter_cons_of_pos hp]
      obtain ⟨k₁, k₂, hsort', hrest', hbefore'⟩ := List.mergeSort_cons trans total a (l.filter p)
      have hafter' : ∀ b ∈ k₂, le a b = true := by
        have hsorted := List.pairwise_mergeSort trans total (a :: l.filter p)
        rw [hsort'] at hsorted
        exact (List.pairwise_cons.mp (List.pairwise_append.mp hsorted).2.1).1
      -- Both lists are the sorted rest, cut where the entries stop to come before the new one.
      have hcut : k₁ ++ k₂ = l₁.filter p ++ l₂.filter p := by
        rw [← hrest', ← ih, hrest, List.filter_append]
      obtain ⟨rfl, rfl⟩ := append_inj_of_test (p := fun b => !le a b) hcut
        (fun b hb => hbefore' b hb) (fun b hb => by simp [hafter' b hb])
        (fun b hb => hbefore b (List.mem_of_mem_filter hb))
        (fun b hb => by simp [hafter b (List.mem_of_mem_filter hb)])
      rw [hsort']

/-- The entries of a sorted list below a bound stand at its head. -/
theorem filter_prefix {p : α → Bool} (hp : ∀ a b, le a b = true → p b = true → p a = true) {l : List α}
    (hl : l.Pairwise fun a b => le a b = true) : l.filter p <+: l := by
  induction l with
  | nil => simp
  | cons a l ih =>
    obtain ⟨ha, hl⟩ := List.pairwise_cons.mp hl
    cases hpa : p a with
    | true =>
      rw [List.filter_cons_of_pos hpa]
      exact (List.cons_prefix_cons).mpr ⟨rfl, ih hl⟩
    | false =>
      -- Nothing after an entry beyond the bound is below it.
      have hnil : l.filter p = [] := by
        refine List.filter_eq_nil_iff.mpr fun b hb hpb => ?_
        rw [hp a b (ha b hb) hpb] at hpa
        contradiction
      rw [List.filter_cons_of_neg (by simp [hpa]), hnil]
      exact List.nil_prefix

/-- A sorted list of the entries below a bound begins the sorted list of all. -/
theorem mergeSort_filter_prefix (trans : ∀ a b c, le a b = true → le b c = true → le a c = true)
    (total : ∀ a b, (le a b || le b a) = true) {p q : α → Bool}
    (hp : ∀ a b, le a b = true → p b = true → p a = true) (hpq : ∀ a, p a = true → q a = true)
    (l : List α) : (l.filter p).mergeSort le <+: (l.filter q).mergeSort le := by
  have hfilter : (l.filter q).filter p = l.filter p := by
    rw [List.filter_filter]
    refine List.filter_congr fun a _ => ?_
    cases hpa : p a with
    | true => simp [hpq a hpa]
    | false => simp
  rw [← hfilter, ← filter_mergeSort trans total]
  exact filter_prefix hp (List.pairwise_mergeSort trans total _)

end StableSort

end Dibs
