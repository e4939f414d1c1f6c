import Dibs.Lib.Machine

/-!
# Transactions under one exclusive lock

Parties `κ` run transactions on a shared value. A transaction takes the lock, works on a private
state that it starts from the committed value, and at its end publishes a new value or leaves the
committed one as it was; either way the lock is free again. Parties interleave freely between the
steps.

`Serial` is the abstract meaning of a journal of transactions: each is run whole, from the value
that the one before it published. `Exclusive.serial` is the refinement: whatever the interleaving,
the committed value is what the journal makes of the first one when its transactions run alone, one
after another. `Serial.rule` reduces a property of the committed value to one about a single whole
transaction.
-/

namespace Dibs

/-- The code of a transaction of the parties `κ` on values `σ`, with its own states `β` and
operations `ι`. -/
structure TransactionCode (κ σ β ι : Type*) where
  /-- The state of a party's transaction that finds this value committed. -/
  start : κ → σ → β
  /-- One operation; none where the transaction does not take it. -/
  act : ι → β → Option β
  /-- The value that a finished transaction publishes; none before its end. -/
  publish : β → Option σ

/-- A value under one exclusive lock. -/
structure Exclusive (κ σ β : Type*) where
  /-- The committed value. -/
  committed : σ
  /-- The party that holds the lock, with the state of its transaction. -/
  active : Option (κ × β)
  /-- The committed transactions in their last states, newest first. -/
  journal : List (κ × β)

/-- What can happen to a value under an exclusive lock. -/
inductive TransactionStep (κ ι : Type*)
  /-- A party is granted the free lock. -/
  | lock (k : κ)
  /-- The holder's transaction takes an operation. -/
  | act (i : ι)
  /-- The holder's transaction commits. -/
  | commit
  /-- The holder's transaction ends without an effect. -/
  | rollback

variable {κ σ β ι : Type*}

namespace TransactionCode

/-- The states of a transaction of `k` that found `a` committed and was alone. -/
def Alone (code : TransactionCode κ σ β ι) (k : κ) (a : σ) : β → Prop :=
  Relation.ReflTransGen (fun b b' => ∃ i, code.act i b = some b') (code.start k a)

/-- The invariant rule for one transaction. -/
theorem Alone.invariant {code : TransactionCode κ σ β ι} {k : κ} {a : σ} {P : β → Prop}
    (h0 : P (code.start k a)) (hact : ∀ i b b', P b → code.act i b = some b' → P b') {b : β}
    (h : code.Alone k a b) : P b := by
  induction h with
  | refl => exact h0
  | tail _ hs ih =>
    obtain ⟨i, hi⟩ := hs
    exact hact i _ _ ih hi

/-- What the whole transactions of a journal, newest first, make of a value when each runs alone
from what the one before it published. -/
inductive Serial (code : TransactionCode κ σ β ι) (a : σ) : List (κ × β) → σ → Prop
  /-- Without a transaction the value stays. -/
  | nil : Serial code a [] a
  /-- One more transaction starts from what the others published. -/
  | cons {l : List (κ × β)} {k : κ} {b : β} {c d : σ} : Serial code a l c → code.Alone k c b →
    code.publish b = some d → Serial code a ((k, b) :: l) d

/-- The rule for journals: what holds at first and is kept by every whole transaction holds of what
the journal makes. -/
theorem Serial.rule {code : TransactionCode κ σ β ι} {a : σ} {P : List (κ × β) → σ → Prop}
    (h0 : P [] a)
    (hone : ∀ l k b c d, P l c → code.Alone k c b → code.publish b = some d → P ((k, b) :: l) d)
    {l : List (κ × β)} {c : σ} (h : code.Serial a l c) : P l c := by
  induction h with
  | nil => exact h0
  | cons _ halone hpublish ih => exact hone _ _ _ _ _ ih halone hpublish

end TransactionCode

namespace Exclusive

/-- One step; none where it cannot be taken. -/
def step (code : TransactionCode κ σ β ι) (s : Exclusive κ σ β) :
    TransactionStep κ ι → Option (Exclusive κ σ β)
  | .lock k => match s.active with
    | none => some { s with active := some (k, code.start k s.committed) }
    | some _ => none
  | .act i => match s.active with
    | none => none
    | some (k, b) => (code.act i b).map fun b' => { s with active := some (k, b') }
  | .commit => match s.active with
    | none => none
    | some (k, b) => (code.publish b).map fun c => ⟨c, none, (k, b) :: s.journal⟩
  | .rollback => match s.active with
    | none => none
    | some _ => some { s with active := none }

/-- The lock and its parties as a machine, from a committed value. -/
def machine (code : TransactionCode κ σ β ι) (a : σ) :
    Machine (Exclusive κ σ β) (TransactionStep κ ι) where
  init s := s = ⟨a, none, []⟩
  allowed s i := (step code s i).isSome
  exec i s := (step code s i).getD s

/-- What a step can do. -/
theorem step_cases {code : TransactionCode κ σ β ι} {s s' : Exclusive κ σ β}
    {i : TransactionStep κ ι} (h : step code s i = some s') :
    (∃ k, i = .lock k ∧ s.active = none ∧
      s' = { s with active := some (k, code.start k s.committed) }) ∨
    (∃ j k b b', i = .act j ∧ s.active = some (k, b) ∧ code.act j b = some b' ∧
      s' = { s with active := some (k, b') }) ∨
    (∃ k b c, i = .commit ∧ s.active = some (k, b) ∧ code.publish b = some c ∧
      s' = ⟨c, none, (k, b) :: s.journal⟩) ∨
    (∃ k b, i = .rollback ∧ s.active = some (k, b) ∧ s' = { s with active := none }) := by
  cases ha : s.active with
  | none =>
    cases i <;> simp only [step, ha, Option.some.injEq, reduceCtorEq] at h
    case lock k => exact .inl ⟨k, rfl, rfl, h.symm⟩
  | some p =>
    obtain ⟨k, b⟩ := p
    cases i <;> simp only [step, ha, Option.map_eq_some_iff, Option.some.injEq, reduceCtorEq] at h
    case act j =>
      obtain ⟨b', hb, rfl⟩ := h
      exact .inr (.inl ⟨j, k, b, b', rfl, rfl, hb, rfl⟩)
    case commit =>
      obtain ⟨c, hc, rfl⟩ := h
      exact .inr (.inr (.inl ⟨k, b, c, rfl, rfl, hc, rfl⟩))
    case rollback => exact .inr (.inr (.inr ⟨k, b, rfl, rfl, h.symm⟩))

/-- An allowed label is a step. -/
theorem step_of_allowed {code : TransactionCode κ σ β ι} {a : σ} {s : Exclusive κ σ β}
    {i : TransactionStep κ ι} (h : (machine code a).allowed s i) :
    step code s i = some ((machine code a).exec i s) := by
  obtain ⟨s', hs⟩ := Option.isSome_iff_exists.mp h
  rw [hs]
  exact congrArg some (by simp only [machine, hs, Option.getD_some])

/-- A step is allowed, and leads where the machine does. -/
theorem later_of_step {code : TransactionCode κ σ β ι} (a : σ) {s s' : Exclusive κ σ β}
    {i : TransactionStep κ ι} (h : step code s i = some s') : (machine code a).Later s s' := by
  refine .single ⟨i, ?_, ?_⟩
  · exact Option.isSome_iff_exists.mpr ⟨s', h⟩
  · simp only [machine, h, Option.getD_some]

/-- Interleaved transactions under the lock are serial: the committed value is what the journal's
transactions make of the first value one after another, and the holder's transaction is as if it
were alone, since what it found is still committed. -/
theorem serial {code : TransactionCode κ σ β ι} {a : σ} {s : Exclusive κ σ β}
    (h : (machine code a).Reach s) :
    code.Serial a s.journal s.committed ∧
      ∀ k b, s.active = some (k, b) → code.Alone k s.committed b := by
  refine Machine.Reach.invariant (P := fun s => code.Serial a s.journal s.committed ∧
    ∀ k b, s.active = some (k, b) → code.Alone k s.committed b) ?_ ?_ h
  · rintro s rfl
    exact ⟨.nil, fun k b hb => by cases hb⟩
  · intro s i _ ⟨hserial, halone⟩ ha
    have hstep := step_of_allowed ha
    revert hstep
    generalize (machine code a).exec i s = s'
    intro hstep
    obtain ⟨k, -, -, rfl⟩ | ⟨j, k, b, b', -, hactive, hact, rfl⟩ | ⟨k, b, c, -, hactive, hpub, rfl⟩ |
      ⟨k, b, -, -, rfl⟩ := step_cases hstep
    · refine ⟨hserial, fun k' b' hb => ?_⟩
      cases hb
      exact .refl
    · refine ⟨hserial, fun k' b'' hb => ?_⟩
      cases hb
      exact (halone k b hactive).tail ⟨j, hact⟩
    · exact ⟨.cons hserial (halone k b hactive) hpub, fun k' b' hb => by cases hb⟩
    · exact ⟨hserial, fun k' b' hb => by cases hb⟩

end Exclusive

end Dibs
