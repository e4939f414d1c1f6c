import Mathlib.Data.List.Basic
import Mathlib.Order.Lattice

/-!
# Registers that keep the newest value until they are closed

A register holds at most one value. A write takes effect when the register is empty, and otherwise
when the value there is open and of a lower version than the new one. Writes can then arrive in any
order and any number of times: when one value is newer than every other one, and every other one is
open, the register ends up with it (`foldl_write_newest`). A value is only ever replaced by one of a
higher version, and a closed one stays (`write_cases`).
-/

namespace Dibs

namespace Register

variable {α ν : Type*} [LinearOrder ν] (version : α → ν) (isOpen : α → Bool)

/-- A write to a register. -/
def write (current : Option α) (a : α) : Option α :=
  match current with
  | none => some a
  | some b => if isOpen b && decide (version b < version a) then some a else some b

/-- A value that a newer one replaces. -/
def Older (m a : α) : Prop := isOpen a = true ∧ version a < version m

/-- A write to a full register replaces an open value by a newer one, or changes nothing. -/
theorem write_cases (b a : α) :
    (Older version isOpen a b ∧ write version isOpen (some b) a = some a) ∨
      (¬ Older version isOpen a b ∧ write version isOpen (some b) a = some b) := by
  by_cases h : Older version isOpen a b
  · exact .inl ⟨h, if_pos (by simpa [Older] using h)⟩
  · exact .inr ⟨h, if_neg (by simpa [Older] using h)⟩

variable {version isOpen}

/-- While the newest value and older ones are written, a register that holds the newest value keeps it,
and one that holds nothing or an older one holds the newest value as soon as it is written. -/
theorem foldl_write {m : α} (l : List α) (hl : ∀ a ∈ l, a = m ∨ Older version isOpen m a)
    (current : Option α) (hcurrent : ∀ b, current = some b → b = m ∨ Older version isOpen m b)
    (hm : m ∈ l ∨ current = some m) : l.foldl (write version isOpen) current = some m := by
  induction l generalizing current with
  | nil => exact hm.resolve_left (by simp)
  | cons a l ih =>
    have ha := hl a List.mem_cons_self
    -- What the first write leaves is the newest value or older, and the newest value if it is written.
    have hnext : (∀ b, write version isOpen current a = some b → b = m ∨ Older version isOpen m b) ∧
        (a = m ∨ current = some m → write version isOpen current a = some m) := by
      cases current with
      | none => exact ⟨fun b hb => Option.some.inj hb ▸ ha, fun h => by simpa [write] using h⟩
      | some b =>
        have hb := hcurrent b rfl
        rcases write_cases version isOpen b a with ⟨hold, hw⟩ | ⟨hnot, hw⟩ <;> rw [hw]
        · refine ⟨fun b' hb' => Option.some.inj hb' ▸ ha, fun h => ?_⟩
          rcases h with rfl | h
          · rfl
          · -- The newest value is not replaced.
            obtain rfl := Option.some.inj h
            rcases ha with rfl | ha
            · rfl
            · exact absurd (hold.2.trans ha.2) (lt_irrefl _)
        · refine ⟨fun b' hb' => Option.some.inj hb' ▸ hb, fun h => ?_⟩
          rcases h with rfl | h
          · rcases hb with rfl | hb
            · rfl
            · exact absurd hb hnot
          · exact h
    refine ih (fun a' ha' => hl a' (List.mem_cons_of_mem _ ha')) _ hnext.1 ?_
    rcases hm with hm | hm
    · rcases List.mem_cons.mp hm with rfl | hm
      · exact .inr (hnext.2 (.inl rfl))
      · exact .inl hm
    · exact .inr (hnext.2 (.inr hm))

/-- Writes converge: whatever their order and multiplicity, the register ends up with the newest
value. -/
theorem foldl_write_newest {m : α} {l : List α} (hm : m ∈ l)
    (hl : ∀ a ∈ l, a = m ∨ Older version isOpen m a) : l.foldl (write version isOpen) none = some m :=
  foldl_write l hl none (by simp) (.inl hm)

end Register

end Dibs
