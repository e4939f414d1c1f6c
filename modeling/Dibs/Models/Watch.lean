import Dibs.Models.Reservation

/-!
# Watches and their runtime sidecars

The public document of `backend/models/watch.py` and the internal sidecar of
`backend/models/watch_runtime.py`. `WatchRuntime.schema_version` is left out: it is always 2 and
nothing reads it.

`windowIdFor` names one cadence window of one watch. `windowIdFor_inj` says that the name determines
both the watch and the cadence number, whatever characters the watch id contains.
-/

namespace Dibs

/-- `WatchStatus`: the lifecycle of a single watch. -/
inductive WatchStatus
  | active
  | found
  | booked
  | expired
  | cancelled
deriving DecidableEq

/-- `WatchStatus.is_terminal`: every status but `ACTIVE`. -/
def WatchStatus.isTerminal : WatchStatus → Bool
  | .active => false
  | _ => true

@[simp]
theorem WatchStatus.isTerminal_iff (s : WatchStatus) : s.isTerminal = true ↔ s ≠ .active := by
  cases s <;> simp [isTerminal]

@[simp]
theorem WatchStatus.isTerminal_eq_false_iff (s : WatchStatus) :
    s.isTerminal = false ↔ s = .active := by
  cases s <;> simp [isTerminal]

/-- The value of a status, as it stands in JSON and in event ids. -/
def WatchStatus.value : WatchStatus → String
  | .active => "ACTIVE"
  | .found => "FOUND"
  | .booked => "BOOKED"
  | .expired => "EXPIRED"
  | .cancelled => "CANCELLED"

/-- `Watch`: one monitored reservation request and everything the worker needs. -/
@[ext]
structure Watch where
  watchId : String
  status : WatchStatus
  query : AvailabilityQuery
  autoBook : Bool
  createdAt : Time
  updatedAt : Time
  expiresAt : Time
  attempts : ℕ
  maxAttempts : ℕ
  lastCheckedAt : Option Time
  nextCheckAt : Option Time
  foundSlots : List AvailabilitySlot
  booking : Option BookingConfirmation
  lastError : Option String
deriving DecidableEq

/-- `Watch.is_exhausted`: out of attempts or out of calendar time. -/
def Watch.isExhausted (w : Watch) (now : Time) : Bool :=
  decide (w.maxAttempts ≤ w.attempts) || decide (w.expiresAt ≤ now)

/-- `RuntimePhase`: which side of the irreversible booking call a claimed window is on. -/
inductive RuntimePhase
  | polling
  | booking
deriving DecidableEq

/-- `WatchRuntime`: the sidecar metadata of one watch, never serialized into public JSON. -/
structure WatchRuntime where
  revision : ℕ
  requiredAttempts : ℕ
  supportsDeadline : Bool
  consecutiveOutages : ℕ
  cadenceSequence : ℕ
  windowId : Option String
  scheduledFor : Option Time
  phase : Option RuntimePhase
  cancelRequested : Bool
  terminalDeleteAt : Option Time
deriving DecidableEq

/-- `window_id_for`: the stable identity of one cadence window. -/
def windowIdFor (watchId : String) (cadenceSequence : ℕ) : String :=
  watchId ++ ":" ++ toString cadenceSequence

/-- A decimal numeral determines its number. -/
theorem toString_nat_inj {m n : ℕ} (h : toString m = toString n) : m = n := by
  have hd : Nat.toDigits 10 m = Nat.toDigits 10 n := by
    simpa [Nat.toString_eq_ofList_toDigits] using congrArg String.toList h
  rw [← Nat.ofDigitChars_ten_toDigits (n := m), hd, Nat.ofDigitChars_ten_toDigits]

/-- A decimal numeral contains no colon. -/
theorem colon_notMem_toString (n : ℕ) : ':' ∉ (toString n).toList := by
  intro h
  rw [Nat.toString_eq_ofList_toDigits, String.toList_ofList] at h
  exact absurd (Nat.isDigit_of_mem_toDigits (by decide) (by decide) h) (by decide)

/-- Two lists around a separator that occurs in neither right half agree half by half. -/
theorem append_cons_inj_of_notMem {α : Type*} {a : α} {l₁ l₂ r₁ r₂ : List α} (h₁ : a ∉ r₁)
    (h₂ : a ∉ r₂) (h : l₁ ++ a :: r₁ = l₂ ++ a :: r₂) : l₁ = l₂ ∧ r₁ = r₂ := by
  rcases List.append_eq_append_iff.mp h with ⟨c, hl, hr⟩ | ⟨c, hl, hr⟩
  · cases c with
    | nil => simpa [eq_comm] using And.intro hl hr
    | cons b c =>
      -- A longer left half would put the separator into the other right half.
      obtain ⟨-, rfl⟩ : a = b ∧ r₁ = c ++ a :: r₂ := by simpa using hr
      exact absurd (by simp) h₁
  · cases c with
    | nil => simpa [eq_comm] using And.intro hl.symm hr.symm
    | cons b c =>
      obtain ⟨-, rfl⟩ : a = b ∧ r₂ = c ++ a :: r₁ := by simpa using hr
      exact absurd (by simp) h₂

/-- A window id determines its watch and its cadence number: the number is what follows the last
colon. -/
theorem windowIdFor_inj {u v : String} {m n : ℕ} (h : windowIdFor u m = windowIdFor v n) :
    u = v ∧ m = n := by
  have hl : u.toList ++ ':' :: (toString m).toList = v.toList ++ ':' :: (toString n).toList := by
    simpa [windowIdFor] using congrArg String.toList h
  obtain ⟨hu, hn⟩ :=
    append_cons_inj_of_notMem (colon_notMem_toString m) (colon_notMem_toString n) hl
  exact ⟨String.toList_inj.mp hu, toString_nat_inj (String.toList_inj.mp hn)⟩

/-- `initial_runtime`: the sidecar for a freshly created watch at revision zero. -/
def initialRuntime (w : Watch) (requiredAttempts : ℕ) (supportsDeadline : Bool)
    (phase : Option RuntimePhase) : WatchRuntime where
  revision := 0
  requiredAttempts := requiredAttempts
  supportsDeadline := supportsDeadline
  consecutiveOutages := 0
  cadenceSequence := 0
  windowId := some (windowIdFor w.watchId 0)
  scheduledFor := w.nextCheckAt
  phase := phase
  cancelRequested := false
  terminalDeleteAt := none

/-- A watch for a table for two, created at instant 0 with its first check due at once: what the
concrete runs are about. -/
def Watch.sample (watchId : String) (autoBook : Bool) (expiresAt : Time) (maxAttempts : ℕ) :
    Watch where
  watchId := watchId
  status := .active
  query := ⟨"Trattoria", .restaurant, "nyc", 2, "2030-01-01", none, none, none, []⟩
  autoBook := autoBook
  createdAt := 0
  updatedAt := 0
  expiresAt := expiresAt
  attempts := 0
  maxAttempts := maxAttempts
  lastCheckedAt := none
  nextCheckAt := some 0
  foundSlots := []
  booking := none
  lastError := none

end Dibs
