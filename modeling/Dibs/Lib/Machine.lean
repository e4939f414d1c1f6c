import Mathlib.Logic.Relation

/-!
# Machines, their runs, and conditions on runs

A `Machine` has states `σ` and labels `ι`. A label fixes everything about a step, the choices of a
scheduler and the answers of an environment included, so executing it is a function; `allowed` says
where a label can be taken at all. Interleaving semantics is a machine whose labels name the party
that moves.

`Reach` is the reachable states and `Later` the states after one. A run from an initial state is
the list of its labels (`Runs`); `Always` is a property of every state of a run and `EachStep` a
condition on every step of it, judged in the state before the step. `ExactlyWhen` relates the two:
while the steps meet the condition the property holds, and the first step that does not breaks it.
By `ExactlyWhen.always_iff` a run then has the property throughout if and only if each of its steps
meets the condition.
-/

namespace Dibs

/-- A machine: its initial states, where a label is allowed, and what executing it does. -/
structure Machine (σ ι : Type*) where
  /-- The states a run may start in. -/
  init : σ → Prop
  /-- Whether a label can be taken in a state. -/
  allowed : σ → ι → Prop
  /-- The state after a label. -/
  exec : ι → σ → σ

namespace Machine

variable {σ ι τ κ : Type*}

/-- The reachable states. -/
inductive Reach (M : Machine σ ι) : σ → Prop
  /-- Initial states are reachable. -/
  | init {s : σ} : M.init s → M.Reach s
  /-- An allowed label leads from a reachable state to a reachable state. -/
  | step {s : σ} (i : ι) : M.Reach s → M.allowed s i → M.Reach (M.exec i s)

/-- One step under some allowed label. -/
def Step (M : Machine σ ι) (s s' : σ) : Prop := ∃ i, M.allowed s i ∧ s' = M.exec i s

/-- Any number of steps. -/
def Later (M : Machine σ ι) : σ → σ → Prop := Relation.ReflTransGen M.Step

/-- The run with the given labels exists: each is allowed where it is taken. -/
def Runs (M : Machine σ ι) : σ → List ι → Prop
  | _, [] => True
  | s, i :: is => M.allowed s i ∧ M.Runs (M.exec i s) is

/-- Whether a run exists can be computed where `allowed` can. -/
instance decidableRuns (M : Machine σ ι) [∀ s i, Decidable (M.allowed s i)] :
    ∀ s is, Decidable (M.Runs s is)
  | _, [] => inferInstanceAs (Decidable True)
  | s, i :: is =>
    have := decidableRuns M (M.exec i s) is
    inferInstanceAs (Decidable (M.allowed s i ∧ M.Runs (M.exec i s) is))

/-- The last state of a run. -/
def final (M : Machine σ ι) : σ → List ι → σ
  | s, [] => s
  | s, i :: is => M.final (M.exec i s) is

/-- A property of every state of a run, the first one included. -/
def Always (M : Machine σ ι) (P : σ → Prop) : σ → List ι → Prop
  | s, [] => P s
  | s, i :: is => P s ∧ M.Always P (M.exec i s) is

/-- A condition on every step of a run, in the state before the step. -/
def EachStep (M : Machine σ ι) (good : σ → ι → Prop) : σ → List ι → Prop
  | _, [] => True
  | s, i :: is => good s i ∧ M.EachStep good (M.exec i s) is

/-- Whether the steps of a run meet a condition can be computed where the condition can. -/
instance decidableEachStep (M : Machine σ ι) (good : σ → ι → Prop) [∀ s i, Decidable (good s i)] :
    ∀ s is, Decidable (M.EachStep good s is)
  | _, [] => inferInstanceAs (Decidable True)
  | s, i :: is =>
    have := decidableEachStep M good (M.exec i s) is
    inferInstanceAs (Decidable (good s i ∧ M.EachStep good (M.exec i s) is))

/-- What the steps of a run yield, newest first. -/
def trace (M : Machine σ ι) (yield : σ → ι → Option κ) : σ → List ι → List κ
  | _, [] => []
  | s, i :: is => M.trace yield (M.exec i s) is ++ (yield s i).toList

/-- The machine that only takes steps that meet a condition. -/
def restrict (M : Machine σ ι) (good : σ → ι → Prop) : Machine σ ι :=
  { M with allowed := fun s i => M.allowed s i ∧ good s i }

/-- Whether a restricted machine allows a label can be computed where both conditions can. -/
instance decidableRestrict (M : Machine σ ι) [∀ s i, Decidable (M.allowed s i)]
    (good : σ → ι → Prop) [∀ s i, Decidable (good s i)] (s : σ) (i : ι) :
    Decidable ((M.restrict good).allowed s i) :=
  inferInstanceAs (Decidable (M.allowed s i ∧ good s i))

variable {M : Machine σ ι}

/-- The invariant rule: what holds initially and is kept by every step from a reachable state
holds in every reachable state. -/
theorem Reach.invariant {P : σ → Prop} (h0 : ∀ s, M.init s → P s)
    (hstep : ∀ s i, M.Reach s → P s → M.allowed s i → P (M.exec i s)) {s : σ} (h : M.Reach s) :
    P s := by
  induction h with
  | init h => exact h0 _ h
  | step i hr ha ih => exact hstep _ i hr ih ha

/-- Steps from a reachable state stay in the reachable states. -/
theorem Reach.later {s s' : σ} (h : M.Reach s) (hl : M.Later s s') : M.Reach s' := by
  induction hl with
  | refl => exact h
  | tail _ hs ih =>
    obtain ⟨i, ha, rfl⟩ := hs
    exact ih.step i ha

/-- The stability rule: what every step from a reachable state keeps, once it holds, holds in every
later state. -/
theorem Later.stable {P : σ → Prop}
    (hstep : ∀ s i, M.Reach s → P s → M.allowed s i → P (M.exec i s)) {s s' : σ} (hr : M.Reach s)
    (hl : M.Later s s') (h : P s) : P s' := by
  induction hl with
  | refl => exact h
  | tail hl hs ih =>
    obtain ⟨i, ha, rfl⟩ := hs
    exact hstep _ i (hr.later hl) ih ha

/-- A run leads to a later state. -/
theorem Later.of_runs {s : σ} {is : List ι} (h : M.Runs s is) : M.Later s (M.final s is) := by
  induction is generalizing s with
  | nil => exact .refl
  | cons i is ih => exact .head ⟨i, h.1, rfl⟩ (ih h.2)

/-- The last state of a run is reachable. -/
theorem Reach.final {s : σ} (h : M.Reach s) {is : List ι} (hr : M.Runs s is) :
    M.Reach (M.final s is) :=
  h.later (.of_runs hr)

/-- Restricting a machine removes reachable states and adds none. -/
theorem Reach.of_restrict {good : σ → ι → Prop} {s : σ} (h : (M.restrict good).Reach s) :
    M.Reach s := by
  induction h with
  | init h => exact .init h
  | step i _ ha ih => exact ih.step i ha.1

/-- A weaker condition allows every state that a stronger one does. -/
theorem Reach.weaken {good good' : σ → ι → Prop} (hgood : ∀ s i, good s i → good' s i) {s : σ}
    (h : (M.restrict good).Reach s) : (M.restrict good').Reach s := by
  induction h with
  | init h => exact .init h
  | step i _ ha ih => exact ih.step i ⟨ha.1, hgood _ i ha.2⟩

/-- The simulation rule: when `f` takes each step from a reachable state to any number of steps of
another machine, it takes the states after a reachable state to states after its image. -/
theorem Later.map {N : Machine τ κ} {f : σ → τ}
    (hstep : ∀ s i, M.Reach s → M.allowed s i → N.Later (f s) (f (M.exec i s))) {s s' : σ}
    (hr : M.Reach s) (hl : M.Later s s') : N.Later (f s) (f s') := by
  induction hl with
  | refl => exact .refl
  | tail hl hs ih =>
    obtain ⟨i, ha, rfl⟩ := hs
    exact ih.trans (hstep _ i (hr.later hl) ha)

/-- The refinement rule: when `f` takes initial states to initial states and each step to any number
of steps of another machine, it takes reachable states to reachable states. -/
theorem Reach.map {N : Machine τ κ} {f : σ → τ} (h0 : ∀ s, M.init s → N.init (f s))
    (hstep : ∀ s i, M.Reach s → N.Reach (f s) → M.allowed s i → N.Later (f s) (f (M.exec i s)))
    {s : σ} (h : M.Reach s) : N.Reach (f s) := by
  induction h with
  | init h => exact .init (h0 _ h)
  | step i hr ha ih => exact ih.later (hstep _ i hr ih ha)

/-- A property that holds exactly as long as a condition on the steps is met: it holds in every
state reached by steps that meet the condition, and the first step that does not meet it leads to a
state without the property. -/
structure ExactlyWhen (M : Machine σ ι) (P : σ → Prop) (good : σ → ι → Prop) : Prop where
  /-- Steps that meet the condition keep the property. -/
  holds : ∀ s, (M.restrict good).Reach s → P s
  /-- The first step that does not meet it breaks the property. -/
  breaks : ∀ s i, (M.restrict good).Reach s → M.allowed s i → ¬ good s i → ¬ P (M.exec i s)

/-- The invariant rule for runs with what their steps yield: what holds initially of nothing, and is
kept by every step with what it yields, holds of the last state of a run with all that was
yielded. -/
theorem trace_invariant {yield : σ → ι → Option κ} {P : σ → List κ → Prop}
    (h0 : ∀ s, M.init s → P s [])
    (hstep : ∀ s l i, M.Reach s → P s l → M.allowed s i → P (M.exec i s) ((yield s i).toList ++ l))
    {s : σ} (hs : M.init s) {is : List ι} (hr : M.Runs s is) :
    P (M.final s is) (M.trace yield s is) := by
  -- The induction needs what was yielded before the rest of the run.
  have key : ∀ is s l, M.Reach s → P s l → M.Runs s is →
      P (M.final s is) (M.trace yield s is ++ l) := by
    intro is
    induction is with
    | nil => exact fun s l _ hp _ => hp
    | cons i is ih =>
      intro s l hreach hp hr
      have h := ih _ _ (hreach.step i hr.1) (hstep s l i hreach hp hr.1) hr.2
      rwa [← List.append_assoc] at h
  have h := key is s [] (.init hs) (h0 s hs) hr
  rwa [List.append_nil] at h

/-- What holds wherever steps that meet a condition lead, holds throughout every run of such steps. -/
theorem Always.of_eachStep {P : σ → Prop} {good : σ → ι → Prop}
    (h : ∀ s, (M.restrict good).Reach s → P s) {s : σ} (hs : M.init s) {is : List ι} (hr : M.Runs s is)
    (hgood : M.EachStep good s is) : M.Always P s is := by
  have key : ∀ is s, (M.restrict good).Reach s → M.Runs s is → M.EachStep good s is →
      M.Always P s is := by
    intro is
    induction is with
    | nil => exact fun s hreach _ _ => h s hreach
    | cons i is ih => exact fun s hreach hr hgood =>
        ⟨h s hreach, ih _ (hreach.step i ⟨hr.1, hgood.1⟩) hr.2 hgood.2⟩
  exact key is s (.init hs) hr hgood

/-- A property of every state of a run holds of the first one. -/
theorem Always.head {P : σ → Prop} {s : σ} {is : List ι} (h : M.Always P s is) : P s := by
  cases is with
  | nil => exact h
  | cons i is => exact h.1

/-- A property of every state of a run holds of the last one. -/
theorem Always.final {P : σ → Prop} {s : σ} {is : List ι} (h : M.Always P s is) :
    P (M.final s is) := by
  induction is generalizing s with
  | nil => exact h
  | cons i is ih => exact ih h.2

/-- Conditions that agree on the allowed steps from reachable states agree on runs. -/
theorem eachStep_congr {good good' : σ → ι → Prop}
    (h : ∀ s i, M.Reach s → M.allowed s i → (good s i ↔ good' s i)) {s : σ} (hs : M.Reach s)
    {is : List ι} (hr : M.Runs s is) : M.EachStep good s is ↔ M.EachStep good' s is := by
  induction is generalizing s with
  | nil => exact Iff.rfl
  | cons i is ih => exact and_congr (h s i hs hr.1) (ih (hs.step i hr.1) hr.2)

/-- A condition that steps meet wherever steps that meet another one lead. -/
theorem eachStep_of_reach {good good' : σ → ι → Prop}
    (h : ∀ s i, (M.restrict good).Reach s → M.allowed s i → good s i → good' s i) {s : σ} (hs : M.init s)
    {is : List ι} (hr : M.Runs s is) (hgood : M.EachStep good s is) : M.EachStep good' s is := by
  have key : ∀ is s, (M.restrict good).Reach s → M.Runs s is → M.EachStep good s is →
      M.EachStep good' s is := by
    intro is
    induction is with
    | nil => exact fun s _ _ _ => trivial
    | cons i is ih => exact fun s hreach hr hgood =>
        ⟨h s i hreach hr.1 hgood.1, ih _ (hreach.step i ⟨hr.1, hgood.1⟩) hr.2 hgood.2⟩
  exact key is s (.init hs) hr hgood

/-- A condition on the steps of a run in two parts. -/
theorem eachStep_append {good : σ → ι → Prop} {s : σ} {is js : List ι} :
    M.EachStep good s (is ++ js) ↔ M.EachStep good s is ∧ M.EachStep good (M.final s is) js := by
  induction is generalizing s with
  | nil => exact ⟨fun h => ⟨trivial, h⟩, fun h => h.2⟩
  | cons i is ih =>
    change good s i ∧ M.EachStep good _ (is ++ js) ↔ (good s i ∧ M.EachStep good _ is) ∧ _
    rw [ih, and_assoc]
    rfl

/-- A run has the property in every state if and only if each of its steps meets the condition. -/
theorem ExactlyWhen.always_iff {P : σ → Prop} {good : σ → ι → Prop} (h : M.ExactlyWhen P good)
    {s : σ} (hs : M.init s) {is : List ι} (hr : M.Runs s is) :
    M.Always P s is ↔ M.EachStep good s is := by
  have key : ∀ s, (M.restrict good).Reach s → ∀ is, M.Runs s is →
      (M.Always P s is ↔ M.EachStep good s is) := by
    intro s hg is
    induction is generalizing s with
    | nil => exact fun _ => ⟨fun _ => trivial, fun _ => h.holds s hg⟩
    | cons i is ih =>
      rintro ⟨ha, hr⟩
      by_cases hi : good s i
      · have ih' := ih _ (hg.step i ⟨ha, hi⟩) hr
        exact ⟨fun hp => ⟨hi, ih'.mp hp.2⟩, fun he => ⟨h.holds s hg, ih'.mpr he.2⟩⟩
      · exact ⟨fun hp => absurd hp.2.head (h.breaks s i hg ha hi), fun he => absurd he.1 hi⟩
  exact key s (.init hs) is hr

end Machine

end Dibs
