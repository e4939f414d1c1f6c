import Dibs.Store.Steps

/-!
# Rejected calls of the in-memory store

A call that is turned down leaves every table as it was, and a cancellation that is put off until a
booking is over records its intent in the sidecar of the watch and writes nothing else. Both are read off
what a call can do to a row (`Memory.call_cases`).
-/

namespace Dibs

/-- The answer of a cancellation that is put off: a booking is in flight. -/
def Op.Deferred (op : Op) (reply : Reply) : Prop :=
  ∃ u w, op = .cancel u ∧ reply = .transition (.notEligible w)

/-- An answer that turns a call down. A cleanup is never turned down. -/
def Op.Rejected (op : Op) (reply : Reply) : Prop :=
  reply.isApplied = false ∧ op.isCleanup = false ∧ ¬ op.Deferred reply

/-- A marker is repaired with a sidecar that has a window and a due time, as `_marker_runtime` builds
it. -/
def Op.Scheduled : Op → Prop
  | .synthesize _ runtime => runtime.windowId.isSome ∧ runtime.scheduledFor.isSome
  | _ => True

/-- The step from `m` to `m'` sets `cancel_requested` in the sidecar of a watch, and that is all. -/
def Memory.Intends (m : Memory) (watchId : String) (m' : Memory) : Prop :=
  ∃ runtime, m.runtimes.get? watchId = some runtime ∧
    m' = { m with runtimes := m.runtimes.insert watchId { runtime with cancelRequested := true } }

/-- A call that has an effect is answered so, or it records an intent. -/
theorem Effect.applied {d : Duration} {now : Time} {r r' : Row} {op : Op} {reply : Reply}
    (h : Effect d now r op reply r') (hop : op.Scheduled) :
    reply.isApplied = true ∨ op.Deferred reply := by
  cases h with
  | pend => exact .inr ⟨_, _, rfl, rfl⟩
  | @synthesize u watch runtime =>
    obtain ⟨hwindow, hdue⟩ := hop
    obtain ⟨windowId, hwindow⟩ := Option.isSome_iff_exists.mp hwindow
    obtain ⟨due, hdue⟩ := Option.isSome_iff_exists.mp hdue
    have hmarker : (markerOf u runtime).isSome = true := by simp [markerOf, hwindow, hdue]
    exact .inl (by rw [hmarker]; rfl)
  | _ => exact .inl rfl

namespace Memory

/-- A call that is turned down changes nothing. -/
theorem call_rejected (m : Memory) (now : Time) {op : Op} (hop : op.Scheduled)
    (h : op.Rejected (m.call now op).1) : (m.call now op).2 = m := by
  obtain ⟨hreply, hcleanup, hdeferred⟩ := h
  rcases m.call_cases now op with ⟨r, heffect, -⟩ | ⟨-, -, hsame⟩ | ⟨due, batchSize, rfl, -⟩
  · rcases heffect.applied hop with happlied | hintent
    · rw [happlied] at hreply
      contradiction
    · exact absurd hintent hdeferred
  · exact hsame
  · contradiction

/-- A cancellation that is put off records its intent. -/
theorem cancel_deferred (m : Memory) (now : Time) {u : String} {w : Watch}
    (h : (m.cancelIfActive now u).1 = .notEligible w) : m.Intends u (m.cancelIfActive now u).2 := by
  unfold cancelIfActive at h ⊢
  split at h
  next => contradiction
  next watch hw =>
    dsimp only at h ⊢
    split at h
    next => contradiction
    next hactive =>
      split at h
      next runtime hbooking =>
        have hruntime := (Option.filter_eq_some_iff.mp hbooking).1
        rw [if_neg hactive]
        exact ⟨runtime, hruntime, rfl⟩
      next => contradiction

end Memory

end Dibs
