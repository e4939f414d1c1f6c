import Mathlib.Algebra.Order.Group.Defs
import Mathlib.Algebra.Order.Sub.Defs
import Mathlib.Algebra.Order.Group.Unbundled.Basic
import Mathlib.Data.List.Pairwise
import Mathlib.Data.List.Basic

/-!
# Sliding windows

A sliding window counts the events of the last stretch of time. An event counts at an instant when it is not
older than the window (`live`). A store keeps events in the order of their times and drops the old ones from the
front when it is looked at; `Covers` says what it then has to do with all the events that stand, which nothing
drops: at every instant from now on the same ones count.

`Bounded` is the promise of a limiter: no stretch of the window's length, wherever it lies, has more than a
number of events. It is kept by whoever adds an event only while fewer than that count.
-/

namespace Dibs

namespace SlidingWindow

variable {T α : Type*} [AddCommGroup T] [LinearOrder T] (time : α → T) (window : T)

/-- The events that count at an instant. -/
def live (now : T) (l : List α) : List α := l.filter fun e => decide (now - window < time e)

/-- The front of a store is dropped up to the first event that counts. -/
def prune (now : T) (l : List α) : List α := l.dropWhile fun e => decide (time e ≤ now - window)

/-- The events in the stretch of the length of the window that ends at an instant. -/
def within (t : T) (l : List α) : List α := l.filter fun e => decide (t - window < time e) && decide (time e ≤ t)

/-- No stretch of the length of the window has more than `limit` events. -/
def Bounded (limit : ℕ) (l : List α) : Prop := ∀ t, (within time window t l).length ≤ limit

/-- A store keeps what counts, from an instant on, of the events that stand. -/
structure Covers (now : T) (stored standing : List α) : Prop where
  /-- The events are stored in the order of their times. -/
  sorted : stored.Pairwise fun a b => time a ≤ time b
  /-- No event is in the future. -/
  storedPast : ∀ e ∈ stored, time e ≤ now
  past : ∀ e ∈ standing, time e ≤ now
  /-- The same events count. -/
  live : ∀ t, now ≤ t → SlidingWindow.live time window t stored = SlidingWindow.live time window t standing

variable {time window}

/-- Pruning keeps exactly the events of a sorted store that count. -/
theorem prune_eq_live {l : List α} (h : l.Pairwise fun a b => time a ≤ time b) (now : T) :
    prune time window now l = live time window now l := by
  induction l with
  | nil => rfl
  | cons e l ih =>
    obtain ⟨hle, hl⟩ := List.pairwise_cons.mp h
    unfold prune live at ih ⊢
    by_cases hold : time e ≤ now - window
    · rw [List.dropWhile_cons_of_pos (by simpa using hold), List.filter_cons_of_neg (by simpa using hold)]
      exact ih hl
    · rw [List.dropWhile_cons_of_neg (by simpa using hold)]
      -- Everything after an event that counts is not older than it.
      refine (List.filter_eq_self.mpr fun x hx => ?_).symm
      rcases List.mem_cons.mp hx with rfl | hx
      · simpa using hold
      · simpa using (not_le.mp hold).trans_le (hle x hx)

/-- What counts later counts now. -/
theorem live_live [IsOrderedAddMonoid T] {t now : T} (h : now ≤ t) (l : List α) :
    live time window t (live time window now l) = live time window t l := by
  unfold live
  rw [List.filter_filter]
  refine List.filter_congr fun e _ => ?_
  have hwindow : now - window ≤ t - window := sub_le_sub_right h _
  simp only [Bool.and_eq_decide, decide_eq_decide, decide_eq_true_eq]
  exact ⟨fun hlive => hlive.1, fun hlive => ⟨hlive, hwindow.trans_lt hlive⟩⟩

theorem live_append (now : T) (l l' : List α) :
    live time window now (l ++ l') = live time window now l ++ live time window now l' :=
  List.filter_append ..

/-- Where no event is in the future, the events that count are those of the stretch that ends now. -/
theorem within_eq_live {now : T} {l : List α} (h : ∀ e ∈ l, time e ≤ now) :
    within time window now l = live time window now l := by
  refine List.filter_congr fun e he => ?_
  rw [decide_eq_true (h e he), Bool.and_true]

namespace Covers

variable {now : T} {stored standing : List α}

/-- Nothing is stored of nothing. -/
theorem nil (now : T) : Covers time window now ([] : List α) [] :=
  ⟨List.Pairwise.nil, by simp, by simp, fun _ _ => rfl⟩

/-- A store that covers now covers later. -/
theorem mono (h : Covers time window now stored standing) {later : T} (hle : now ≤ later) :
    Covers time window later stored standing :=
  ⟨h.sorted, fun e he => (h.storedPast e he).trans hle, fun e he => (h.past e he).trans hle,
    fun t ht => h.live t (hle.trans ht)⟩

/-- What is left after pruning is what counts of the events that stand. -/
theorem prune_eq (h : Covers time window now stored standing) {later : T} (hle : now ≤ later) :
    prune time window later stored = SlidingWindow.live time window later standing := by
  rw [prune_eq_live h.sorted, h.live later hle]

/-- Pruning keeps a store. -/
theorem prune [IsOrderedAddMonoid T] (h : Covers time window now stored standing) {later : T}
    (hle : now ≤ later) : Covers time window later (SlidingWindow.prune time window later stored) standing where
  sorted := h.sorted.sublist (List.dropWhile_sublist _)
  storedPast e he := (h.storedPast e ((List.dropWhile_sublist _).mem he)).trans hle
  past := (h.mono hle).past
  live t ht := by
    rw [h.prune_eq hle, live_live ht]

/-- A new event goes to the end. -/
theorem append (h : Covers time window now stored standing) {e : α} (hle : now ≤ time e) :
    Covers time window (time e) (stored ++ [e]) (standing ++ [e]) where
  sorted := by
    refine List.pairwise_append.mpr ⟨h.sorted, List.pairwise_singleton _ _, fun x hx y hy => ?_⟩
    obtain rfl := List.mem_singleton.mp hy
    exact (h.storedPast x hx).trans hle
  storedPast x hx := by
    rcases List.mem_append.mp hx with hx | hx
    · exact (h.storedPast x hx).trans hle
    · exact (List.mem_singleton.mp hx) ▸ le_rfl
  past x hx := by
    rcases List.mem_append.mp hx with hx | hx
    · exact (h.past x hx).trans hle
    · exact (List.mem_singleton.mp hx) ▸ le_rfl
  live t ht := by
    rw [live_append, live_append, h.live t (hle.trans ht)]

/-- Events that no longer stand are removed from the store too. -/
theorem filter (h : Covers time window now stored standing) (p : α → Bool) :
    Covers time window now (stored.filter p) (standing.filter p) where
  sorted := h.sorted.sublist List.filter_sublist
  storedPast e he := h.storedPast e (List.mem_of_mem_filter he)
  past e he := h.past e (List.mem_of_mem_filter he)
  live t ht := by
    have hlive := h.live t ht
    unfold SlidingWindow.live at hlive ⊢
    rw [List.filter_filter, List.filter_filter]
    simp only [Bool.and_comm _ (p _)]
    rw [← List.filter_filter, ← List.filter_filter, hlive]

end Covers

namespace Bounded

variable {limit : ℕ} {l l' : List α}

/-- Fewer events keep the bound. -/
theorem sublist (h : Bounded time window limit l) (hl : l'.Sublist l) : Bounded time window limit l' :=
  fun t => ((hl.filter _).length_le).trans (h t)

/-- An event that is added while fewer than the limit count keeps the bound. -/
theorem append [IsOrderedAddMonoid T] (h : Bounded time window limit l) {now : T} {e : α}
    (hle : now ≤ time e) (hroom : (live time window now l).length < limit) :
    Bounded time window limit (l ++ [e]) := by
  intro t
  unfold within
  rw [List.filter_append]
  by_cases hin : t - window < time e ∧ time e ≤ t
  · -- Whatever lies in a stretch that has the new event counted when it was added.
    have hcounted : (l.filter fun x => decide (t - window < time x) && decide (time x ≤ t)).Sublist
        (live time window now l) := by
      refine List.monotone_filter_right _ fun x hx => ?_
      have hwindow : now - window ≤ t - window := sub_le_sub_right (hle.trans hin.2) _
      simp only [Bool.and_eq_true, decide_eq_true_eq] at hx ⊢
      exact hwindow.trans_lt hx.1
    have hlength := hcounted.length_le
    have hone : ([e].filter fun x => decide (t - window < time x) && decide (time x ≤ t)).length ≤ 1 :=
      List.length_filter_le _ _
    rw [List.length_append]
    omega
  · rw [List.filter_cons_of_neg (by simpa using hin), List.filter_nil, List.append_nil]
    exact h t

end Bounded

end SlidingWindow

end Dibs
