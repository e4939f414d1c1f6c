import Mathlib.Order.Lattice
import Mathlib.Data.List.Pairwise
import Mathlib.Data.Nat.Basic

/-!
# Fenced leases

A lease on one resource is handed out with a token from a counter. Acquiring it raises the counter
and replaces whatever grant was in force; a grant also ends when it is dropped, and it is worth
nothing from its expiry on. A holder that acts late must present its grant, and `Owns` is the check
that decides: the grant in force has its token and owner, and has not expired.

`Lease` carries the grants issued so far as a history, newest first. `Sound` is the invariant that
every step keeps: tokens decrease along the history, none exceeds the counter, and the grant in
force is the newest one. From it, an issued grant that passes the check is the newest one
(`Sound.newest_of_owns`), and a grant that does not pass it never passes it again (`Sound.owns_of_step`).
-/

namespace Dibs

/-- A grant of a lease: its token, its owner, and when it expires. -/
structure Grant (ω τ : Type*) where
  /-- The token drawn from the counter. -/
  token : ℕ
  /-- Who acquired it. -/
  owner : ω
  /-- From this instant on it is worth nothing. -/
  expires : τ

/-- The lease on one resource. -/
structure Lease (ω τ : Type*) where
  /-- The last token issued. -/
  fence : ℕ
  /-- The grant in force, expired or not. -/
  held : Option (Grant ω τ)
  /-- Every grant issued so far, newest first. -/
  issued : List (Grant ω τ)

namespace Lease

variable {ω τ : Type*}

/-- The steps of a lease. -/
inductive Step : Lease ω τ → Lease ω τ → Prop
  /-- Nothing happens to this lease. -/
  | keep (l : Lease ω τ) : Step l l
  /-- A new grant under the next token replaces the one in force. -/
  | acquire (l : Lease ω τ) (owner : ω) (expires : τ) :
      Step l ⟨l.fence + 1, some ⟨l.fence + 1, owner, expires⟩,
        ⟨l.fence + 1, owner, expires⟩ :: l.issued⟩
  /-- The grant in force is given up. -/
  | drop (l : Lease ω τ) : Step l { l with held := none }

/-- The invariant of a lease. -/
structure Sound (l : Lease ω τ) : Prop where
  /-- No token exceeds the counter. -/
  token_le : ∀ g ∈ l.issued, g.token ≤ l.fence
  /-- Every token is greater than those issued before it. -/
  decreasing : l.issued.Pairwise fun a b => b.token < a.token
  /-- The grant in force is the newest one. -/
  held_newest : ∀ g, l.held = some g → l.issued.head? = some g

/-- A lease nobody ever acquired. -/
theorem sound_fresh : Sound (⟨0, none, []⟩ : Lease ω τ) :=
  ⟨by simp, List.Pairwise.nil, by simp⟩

/-- Every step keeps the invariant. -/
theorem Sound.step {l l' : Lease ω τ} (h : l.Sound) (hs : Step l l') : l'.Sound := by
  cases hs with
  | keep => exact h
  | acquire owner expires =>
    refine ⟨fun g hg => ?_, List.pairwise_cons.mpr ⟨fun g hg => ?_, h.decreasing⟩, fun g hg => ?_⟩
    · rcases List.mem_cons.mp hg with rfl | hg
      · exact le_refl _
      · exact Nat.le_succ_of_le (h.token_le g hg)
    · exact Nat.lt_succ_of_le (h.token_le g hg)
    · simpa using hg
  | drop => exact ⟨h.token_le, h.decreasing, by simp⟩

/-- Along a list whose numbers decrease, a number determines its element. -/
theorem eq_of_decreasing {α : Type*} (f : α → ℕ) {l : List α}
    (h : l.Pairwise fun a b => f b < f a) {a b : α} (ha : a ∈ l) (hb : b ∈ l) (e : f a = f b) :
    a = b := by
  have hd : l.Pairwise fun a b => f a = f b → a = b :=
    h.imp fun hlt he => absurd he.symm (ne_of_lt hlt)
  have hf : l.Pairwise (flip fun a b => f a = f b → a = b) :=
    hd.imp fun hab hba => (hab hba.symm).symm
  exact hd.forall_of_forall_of_flip (fun _ _ _ => rfl) hf ha hb e

/-- Two issued grants with one token are the same grant. -/
theorem Sound.eq_of_token {l : Lease ω τ} (h : l.Sound) {g g' : Grant ω τ} (hg : g ∈ l.issued)
    (hg' : g' ∈ l.issued) (e : g.token = g'.token) : g = g' :=
  eq_of_decreasing Grant.token h.decreasing hg hg' e

section Owns

variable [LinearOrder τ]

/-- The ownership check: the grant in force has this grant's token and owner, and has not
expired. -/
def Owns (l : Lease ω τ) (g : Grant ω τ) (now : τ) : Prop :=
  ∃ h, l.held = some h ∧ h.token = g.token ∧ h.owner = g.owner ∧ now < h.expires

/-- An issued grant that passes the check is the grant in force. -/
theorem Sound.held_of_owns {l : Lease ω τ} (hl : l.Sound) {g : Grant ω τ} (hg : g ∈ l.issued)
    {now : τ} (h : l.Owns g now) : l.held = some g ∧ now < g.expires := by
  obtain ⟨g', hh, ht, -, hx⟩ := h
  have hm : g' ∈ l.issued := List.mem_of_mem_head? (hl.held_newest g' hh)
  obtain rfl := hl.eq_of_token hm hg ht
  exact ⟨hh, hx⟩

/-- The issued grant that passes the check has the greatest token of all. -/
theorem Sound.newest_of_owns {l : Lease ω τ} (hl : l.Sound) {g : Grant ω τ} (hg : g ∈ l.issued)
    {now : τ} (h : l.Owns g now) : ∀ g' ∈ l.issued, g'.token ≤ g.token := by
  have hh := hl.held_newest g (hl.held_of_owns hg h).1
  obtain ⟨rest, hr⟩ : ∃ rest, l.issued = g :: rest := by
    cases hi : l.issued with
    | nil => simp [hi] at hh
    | cons a rest => exact ⟨rest, by simpa [hi] using hh⟩
  intro g' hg'
  have hd := hl.decreasing
  rw [hr] at hd hg'
  rcases List.mem_cons.mp hg' with rfl | hm
  · exact le_refl _
  · exact le_of_lt ((List.pairwise_cons.mp hd).1 g' hm)

/-- An issued grant that passes the check after a step passed it before, on the same grant in force,
as long as the clock does not go back. -/
theorem Sound.owns_of_step {l l' : Lease ω τ} (hl : l.Sound) {g : Grant ω τ} (hg : g ∈ l.issued)
    {now now' : τ} (hn : now ≤ now') (hs : Step l l') (h : l'.Owns g now') :
    l.Owns g now ∧ l'.held = l.held := by
  obtain ⟨g', hh, ht, hw, hx⟩ := h
  cases hs with
  | keep => exact ⟨⟨g', hh, ht, hw, lt_of_le_of_lt hn hx⟩, rfl⟩
  | acquire owner expires =>
    -- The new grant's token is above every issued one, so it is not `g`'s.
    obtain rfl : (⟨l.fence + 1, owner, expires⟩ : Grant ω τ) = g' := by simpa using hh
    have := hl.token_le g hg
    simp only at ht
    omega
  | drop => simp at hh

end Owns

end Lease

end Dibs
