import Mathlib.Algebra.Order.Ring.Rat
import Dibs.Lib.Dict
import Dibs.Lib.Machine
import Dibs.Lib.SlidingWindow

/-!
# The in-process throttle

`SlidingWindowThrottle` of `backend/services/throttle.py`. Each operation reads the clock several times; the
readings are an argument. Times are exact.

`Tracks` relates the deques of the throttle to the events that stand, that is, that were recorded and neither
released nor reset. Whatever the readings, the same ones count, and `window_exact` says what follows for the
decisions.
-/

namespace Dibs

/-- `_MAX_TRACKED_KEYS`: past it the throttle stops tracking new keys. -/
def maxTrackedKeys : ℕ := 10000

/-- One event of a deque: when it was recorded, and its token. -/
structure ThrottleEvent where
  time : ℚ
  token : String
deriving DecidableEq

/-- `RateLimitedError`, or what `on_limit` makes. -/
inductive RateLimited
  | rateLimited
deriving DecidableEq

/-- The readings of the clock in one operation, in order. -/
structure Readings where
  /-- The reading of `_live` in `check`, and in `arelease`. -/
  checked : ℚ
  /-- The reading of `_live` in `record`. -/
  looked : ℚ
  /-- The readings of `_live` in `_sweep`, key by key. -/
  swept : ℕ → ℚ
  /-- The reading that dates the event. -/
  recorded : ℚ
  checked_le : checked ≤ looked
  looked_le : ∀ i, looked ≤ swept i
  swept_mono : Monotone swept
  swept_le : ∀ i, swept i ≤ recorded

/-- The readings of a clock that is read once. -/
def Readings.once (now : ℚ) : Readings :=
  ⟨now, now, fun _ => now, now, le_rfl, fun _ => le_rfl, monotone_const, fun _ => le_rfl⟩

/-- `SlidingWindowThrottle`: a sliding-window counter of recent events, keyed by caller. -/
structure SlidingWindowThrottle where
  maxEvents : ℕ
  windowSeconds : ℤ
  failures : Dict String (List ThrottleEvent)

namespace SlidingWindowThrottle

/-- A throttle that tracks nothing. -/
def new (maxEvents : ℕ) (windowSeconds : ℤ) : SlidingWindowThrottle := ⟨maxEvents, windowSeconds, .empty⟩

/-- `_live`: the events of a key inside the window, or none when it has none left. -/
def live (t : SlidingWindowThrottle) (key : String) (now : ℚ) :
    Option (List ThrottleEvent) × SlidingWindowThrottle :=
  match t.failures.get? key with
  | none => (none, t)
  | some attempts =>
    let attempts := SlidingWindow.prune ThrottleEvent.time (t.windowSeconds : ℚ) now attempts
    if attempts = [] then (none, { t with failures := t.failures.erase key })
    else (some attempts, { t with failures := t.failures.insert key attempts })

/-- The loop of `_sweep` over the keys that are left. -/
def sweepKeys : List String → (ℕ → ℚ) → SlidingWindowThrottle → SlidingWindowThrottle
  | [], _, t => t
  | key :: keys, swept, t => sweepKeys keys (fun i => swept (i + 1)) (t.live key (swept 0)).2

/-- `_sweep`: drop every key whose window has fully drained. -/
def sweep (t : SlidingWindowThrottle) (swept : ℕ → ℚ) : SlidingWindowThrottle :=
  sweepKeys (t.failures.entries.map Prod.fst) swept t

/-- `check`: raise if a key has already spent its allowance. -/
def check (t : SlidingWindowThrottle) (key : String) (now : ℚ) :
    Except RateLimited Unit × SlidingWindowThrottle :=
  let (attempts, t) := t.live key now
  (if attempts.any (fun attempts => decide (t.maxEvents ≤ attempts.length)) then .error .rateLimited else .ok (), t)

/-- The part of `record` that drops drained keys at the ceiling. -/
def roomFor (t : SlidingWindowThrottle) (swept : ℕ → ℚ) : SlidingWindowThrottle :=
  if maxTrackedKeys ≤ t.failures.size then t.sweep swept else t

/-- `record`: count one event against a key. The token is what `uuid4` draws. -/
def record (t : SlidingWindowThrottle) (key : String) (r : Readings) (token : String) :
    Option String × SlidingWindowThrottle :=
  match t.live key r.looked with
  | (some attempts, t) =>
    (some token, { t with failures := t.failures.insert key (attempts ++ [⟨r.recorded, token⟩]) })
  | (none, t) =>
    let t := t.roomFor r.swept
    -- Fail open rather than grow without bound.
    if maxTrackedKeys ≤ t.failures.size then (none, t)
    else (some token, { t with failures := t.failures.insert key [⟨r.recorded, token⟩] })

/-- `areset`: forget the events of a key. -/
def areset (t : SlidingWindowThrottle) (key : String) : SlidingWindowThrottle :=
  { t with failures := t.failures.erase key }

/-- `aconsume`: check and reserve one event without yielding in between. -/
def aconsume (t : SlidingWindowThrottle) (key : String) (r : Readings) (token : String) :
    Except RateLimited (Option String) × SlidingWindowThrottle :=
  match t.check key r.checked with
  | (.error e, t) => (.error e, t)
  | (.ok (), t) =>
    let (token, t) := t.record key r token
    (.ok token, t)

/-- `arelease`: remove just the reservation of one request. -/
def arelease (t : SlidingWindowThrottle) (key : String) (token : Option String) (now : ℚ) :
    SlidingWindowThrottle :=
  match t.live key now, token with
  | (some attempts, t), some token =>
    { t with failures := t.failures.insert key (attempts.eraseP fun e => e.token = token) }
  | (_, t), _ => t

/-! ## What the deques hold -/

/-- The deque of a key, empty when it has none. -/
def stored (t : SlidingWindowThrottle) (key : String) : List ThrottleEvent := (t.failures.get? key).getD []

/-- The window of a throttle in exact time. -/
def window (t : SlidingWindowThrottle) : ℚ := t.windowSeconds

variable {t : SlidingWindowThrottle}

@[simp]
theorem stored_insert (key : String) (events : List ThrottleEvent) (k : String) :
    stored { t with failures := t.failures.insert key events } k = if key = k then events else t.stored k := by
  unfold stored
  rw [Dict.get?_insert]
  split_ifs <;> rfl

@[simp]
theorem stored_erase (key k : String) :
    stored { t with failures := t.failures.erase key } k = if key = k then [] else t.stored k := by
  unfold stored
  rw [Dict.get?_erase]
  split_ifs <;> rfl

/-- What is left of a deque when it is looked at. -/
def pruned (t : SlidingWindowThrottle) (key : String) (now : ℚ) : List ThrottleEvent :=
  SlidingWindow.prune ThrottleEvent.time t.window now (t.stored key)

/-- `_live` returns what is left, unless nothing is. -/
theorem live_fst (t : SlidingWindowThrottle) (key : String) (now : ℚ) :
    (t.live key now).1 = if t.pruned key now = [] then none else some (t.pruned key now) := by
  unfold live pruned stored window
  cases t.failures.get? key with
  | none => rfl
  | some attempts =>
    dsimp only [Option.getD_some]
    split_ifs <;> rfl

/-- `_live` prunes one deque and keeps the others. -/
theorem stored_live (t : SlidingWindowThrottle) (key : String) (now : ℚ) (k : String) :
    (t.live key now).2.stored k = if key = k then t.pruned key now else t.stored k := by
  unfold pruned live
  cases hkey : t.failures.get? key with
  | none =>
    dsimp only
    split_ifs with hk
    · subst hk
      unfold stored
      rw [hkey]
      rfl
    · rfl
  | some attempts =>
    have hstored : t.stored key = attempts := by
      unfold stored
      rw [hkey]
      rfl
    rw [hstored]
    dsimp only
    split_ifs with hnil hk hk
    · rw [stored_erase, if_pos hk]
      exact hnil.symm
    · rw [stored_erase, if_neg hk]
    · rw [stored_insert, if_pos hk]
      rfl
    · rw [stored_insert, if_neg hk]

/-- `_live` changes neither the limit nor the window, and tracks no new key. -/
theorem live_frame (t : SlidingWindowThrottle) (key : String) (now : ℚ) :
    (t.live key now).2.maxEvents = t.maxEvents ∧ (t.live key now).2.windowSeconds = t.windowSeconds ∧
      (t.live key now).2.failures.size ≤ t.failures.size := by
  unfold live
  cases hkey : t.failures.get? key with
  | none => exact ⟨rfl, rfl, le_rfl⟩
  | some attempts =>
    dsimp only
    split_ifs
    · exact ⟨rfl, rfl, Dict.size_erase_le _ _⟩
    · refine ⟨rfl, rfl, ?_⟩
      rw [Dict.size_insert, hkey]
      exact le_rfl

/-- Sweeping changes neither the limit nor the window, and tracks no new key. -/
theorem sweepKeys_frame (keys : List String) (swept : ℕ → ℚ) (t : SlidingWindowThrottle) :
    (sweepKeys keys swept t).maxEvents = t.maxEvents ∧
      (sweepKeys keys swept t).windowSeconds = t.windowSeconds ∧
      (sweepKeys keys swept t).failures.size ≤ t.failures.size := by
  induction keys generalizing swept t with
  | nil => exact ⟨rfl, rfl, le_rfl⟩
  | cons key keys ih =>
    obtain ⟨hmax, hwindow, hsize⟩ := ih (fun i => swept (i + 1)) (t.live key (swept 0)).2
    obtain ⟨hmax', hwindow', hsize'⟩ := live_frame t key (swept 0)
    exact ⟨hmax.trans hmax', hwindow.trans hwindow', hsize.trans hsize'⟩

/-- Sweeping leaves an empty deque empty. -/
theorem stored_sweepKeys_nil (keys : List String) (swept : ℕ → ℚ) (t : SlidingWindowThrottle) {k : String}
    (h : t.stored k = []) : (sweepKeys keys swept t).stored k = [] := by
  induction keys generalizing swept t with
  | nil => exact h
  | cons key keys ih =>
    refine ih _ _ ?_
    rw [stored_live]
    split_ifs with hk
    · subst hk
      unfold pruned
      rw [h]
      rfl
    · exact h

theorem roomFor_frame (t : SlidingWindowThrottle) (swept : ℕ → ℚ) :
    (t.roomFor swept).maxEvents = t.maxEvents ∧ (t.roomFor swept).windowSeconds = t.windowSeconds ∧
      (t.roomFor swept).failures.size ≤ t.failures.size := by
  unfold roomFor
  split_ifs
  · exact sweepKeys_frame _ _ t
  · exact ⟨rfl, rfl, le_rfl⟩

/-- The cases of `record`: the deque of the key goes on, a new one begins, or there is no room for one. -/
theorem record_cases (t : SlidingWindowThrottle) (key : String) (r : Readings) (token : String) :
    (∃ u : SlidingWindowThrottle, (u = (t.live key r.looked).2 ∨ u = (t.live key r.looked).2.roomFor r.swept) ∧
        (t.record key r token) = (some token, { u with
          failures := u.failures.insert key (u.stored key ++ [⟨r.recorded, token⟩]) }) ∧
        (u.failures.size < maxTrackedKeys ∨ (u.failures.get? key).isSome)) ∨
      (t.record key r token = (none, (t.live key r.looked).2.roomFor r.swept) ∧
        maxTrackedKeys ≤ ((t.live key r.looked).2.roomFor r.swept).failures.size) := by
  have hfst := live_fst t key r.looked
  have hstored := stored_live t key r.looked key
  rw [if_pos rfl] at hstored
  unfold record
  cases hcase : t.live key r.looked with
  | mk attempts u =>
    rw [hcase] at hfst hstored
    cases attempts with
    | some attempts =>
      have hne : t.pruned key r.looked ≠ [] := by
        intro hnil
        rw [if_pos hnil] at hfst
        contradiction
      have hevents : u.stored key = attempts := by
        rw [hstored]
        rw [if_neg hne] at hfst
        exact (Option.some.inj hfst).symm
      refine .inl ⟨u, .inl rfl, by rw [hevents], .inr ?_⟩
      by_contra habsent
      rw [Option.not_isSome_iff_eq_none] at habsent
      unfold stored at hevents hstored
      rw [habsent] at hstored
      exact hne hstored.symm
    | none =>
      have hempty : u.stored key = [] := by
        rw [hstored]
        by_contra hne
        rw [if_neg hne] at hfst
        contradiction
      have hroom : (u.roomFor r.swept).stored key = [] := by
        unfold roomFor
        split_ifs
        · exact stored_sweepKeys_nil _ _ u hempty
        · exact hempty
      dsimp only
      split_ifs with hfull
      · exact .inr ⟨rfl, hfull⟩
      · exact .inl ⟨u.roomFor r.swept, .inr rfl, by rw [hroom]; rfl, .inl (not_le.mp hfull)⟩

/-- Among events with different tokens, the first with a token is the only one. -/
theorem eraseP_eq_filter {l : List ThrottleEvent} (h : (l.map ThrottleEvent.token).Nodup) (token : String) :
    l.eraseP (fun e => e.token = token) = l.filter fun e => !decide (some token = some e.token) := by
  induction l with
  | nil => rfl
  | cons e l ih =>
    obtain ⟨hnotMem, hl⟩ := List.nodup_cons.mp h
    by_cases heq : e.token = token
    · rw [List.eraseP_cons_of_pos (by simpa using heq), List.filter_cons_of_neg (by simp [heq])]
      refine (List.filter_eq_self.mpr fun x hx => ?_).symm
      have hne : x.token ≠ token := fun hx' => hnotMem (heq ▸ hx' ▸ List.mem_map_of_mem hx)
      simpa using Ne.symm hne
    · rw [List.eraseP_cons_of_neg (by simpa using heq), List.filter_cons_of_pos (by simp [Ne.symm heq]),
        ih hl]

/-! ## The events that stand -/

/-- The deques of a throttle hold what counts of the events that stand. -/
def Tracks (t : SlidingWindowThrottle) (now : ℚ) (standing : String → List ThrottleEvent) : Prop :=
  ∀ key, SlidingWindow.Covers ThrottleEvent.time t.window now (t.stored key) (standing key)

/-- The events of a key that count at an instant. -/
def counting (window : ℚ) (now : ℚ) (events : List ThrottleEvent) : List ThrottleEvent :=
  SlidingWindow.live ThrottleEvent.time window now events

/-- An event is recorded. -/
def withEvent (standing : String → List ThrottleEvent) (key : String) (e : ThrottleEvent) :
    String → List ThrottleEvent :=
  fun k => if key = k then standing k ++ [e] else standing k

/-- The event with a token is released. -/
def withoutToken (standing : String → List ThrottleEvent) (key : String) (token : Option String) :
    String → List ThrottleEvent :=
  fun k => if key = k then (standing k).filter (fun e => !decide (token = some e.token)) else standing k

/-- The events of a key are forgotten. -/
def withoutKey (standing : String → List ThrottleEvent) (key : String) : String → List ThrottleEvent :=
  fun k => if key = k then [] else standing k

namespace Tracks

variable {now : ℚ} {standing : String → List ThrottleEvent}

theorem mono (h : t.Tracks now standing) {later : ℚ} (hle : now ≤ later) : t.Tracks later standing :=
  fun key => (h key).mono hle

/-- What is left of a deque is what counts. -/
theorem pruned_eq (h : t.Tracks now standing) {later : ℚ} (hle : now ≤ later) (key : String) :
    t.pruned key later = counting t.window later (standing key) :=
  (h key).prune_eq hle

/-- Looking at a deque keeps what counts. -/
theorem live (h : t.Tracks now standing) {later : ℚ} (hle : now ≤ later) (key : String) :
    (t.live key later).2.Tracks later standing := by
  intro k
  have hwindow : (t.live key later).2.window = t.window := congrArg Int.cast (live_frame t key later).2.1
  rw [hwindow, stored_live]
  split_ifs with hk
  · subst hk
    exact (h key).prune hle
  · exact (h k).mono hle

/-- So does sweeping. -/
theorem sweepKeys (h : t.Tracks now standing) (keys : List String) {swept : ℕ → ℚ} {later : ℚ}
    (hle : now ≤ swept 0) (hmono : Monotone swept) (hlater : ∀ i, swept i ≤ later) :
    (sweepKeys keys swept t).Tracks later standing := by
  induction keys generalizing t now swept with
  | nil => exact h.mono (hle.trans (hlater 0))
  | cons key keys ih =>
    exact ih (h.live hle key) (hmono (Nat.zero_le 1)) (fun i j hij => hmono (Nat.add_le_add_right hij 1))
      fun i => hlater (i + 1)

/-- The check refuses exactly when the limit is reached. -/
theorem check (h : t.Tracks now standing) {later : ℚ} (hle : now ≤ later) (hlimit : 1 ≤ t.maxEvents)
    (key : String) : ((t.check key later).1 = .error .rateLimited ↔
      t.maxEvents ≤ (counting t.window later (standing key)).length) := by
  have hmax := (live_frame t key later).1
  have hpruned := h.pruned_eq hle key
  have hfst := live_fst t key later
  unfold SlidingWindowThrottle.check
  dsimp only
  rw [hfst, hmax, ← hpruned]
  by_cases hnil : t.pruned key later = []
  · rw [if_pos hnil, hnil]
    simp only [Option.any_none, List.length_nil]
    constructor
    · intro hc
      contradiction
    · omega
  · rw [if_neg hnil, Option.any_some]
    by_cases hfull : t.maxEvents ≤ (t.pruned key later).length
    · simp [hfull]
    · simp [hfull]

/-- Looking for room keeps what counts. -/
theorem roomFor (h : t.Tracks now standing) {swept : ℕ → ℚ} {later : ℚ} (hle : now ≤ swept 0)
    (hmono : Monotone swept) (hlater : ∀ i, swept i ≤ later) : (t.roomFor swept).Tracks later standing := by
  unfold SlidingWindowThrottle.roomFor
  split_ifs
  · exact h.sweepKeys _ hle hmono hlater
  · exact h.mono (hle.trans (hlater 0))

/-- A new event goes to the end of its deque. -/
theorem insert (h : t.Tracks now standing) (key : String) {e : ThrottleEvent} (hle : now ≤ e.time) :
    Tracks { t with failures := t.failures.insert key (t.stored key ++ [e]) } e.time
      (withEvent standing key e) := by
  intro k
  rw [stored_insert]
  unfold withEvent
  split_ifs with hk
  · subst hk
    exact (h key).append hle
  · exact (h k).mono hle

/-- Recording adds one event to those that stand, or fails open for want of room. -/
theorem record (h : t.Tracks now standing) {r : Readings} (hle : now ≤ r.looked) (key token : String) :
    ((t.record key r token).1 = some token ∧
        (t.record key r token).2.Tracks r.recorded (withEvent standing key ⟨r.recorded, token⟩)) ∨
      ((t.record key r token).1 = none ∧ (t.record key r token).2.Tracks r.recorded standing ∧
        maxTrackedKeys ≤ t.failures.size) := by
  have hlooked : r.looked ≤ r.recorded := (r.looked_le 0).trans (r.swept_le 0)
  have hlive := h.live hle key
  have hroom := hlive.roomFor (r.looked_le 0) r.swept_mono r.swept_le
  rcases record_cases t key r token with ⟨u, hu, hrecord, -⟩ | ⟨hrecord, hfull⟩
  · left
    have htracks : u.Tracks r.recorded standing := by
      rcases hu with rfl | rfl
      · exact hlive.mono hlooked
      · exact hroom
    rw [hrecord]
    exact ⟨rfl, htracks.insert key (e := ⟨r.recorded, token⟩) le_rfl⟩
  · right
    rw [hrecord]
    refine ⟨rfl, hroom, hfull.trans ((roomFor_frame _ _).2.2.trans (live_frame t key r.looked).2.2)⟩

/-- A reset forgets the events of its key. -/
theorem areset (h : t.Tracks now standing) (key : String) :
    (t.areset key).Tracks now (withoutKey standing key) := by
  intro k
  unfold SlidingWindowThrottle.areset withoutKey
  rw [stored_erase]
  split_ifs
  · exact .nil now
  · exact h k

/-- A release removes the event with its token. -/
theorem arelease (h : t.Tracks now standing) {later : ℚ} (hle : now ≤ later) (key : String)
    (token : Option String) (hnodup : ((standing key).map ThrottleEvent.token).Nodup) :
    (t.arelease key token later).Tracks later (withoutToken standing key token) := by
  have hlive := h.live hle key
  have hfst := live_fst t key later
  have hstored := stored_live t key later key
  rw [if_pos rfl] at hstored
  have hpruned := h.pruned_eq hle key
  unfold SlidingWindowThrottle.arelease
  cases hcase : t.live key later with
  | mk attempts u =>
    rw [hcase] at hlive hfst hstored
    intro k
    have hk := hlive k
    cases token with
    | none =>
      have hsame : withoutToken standing key none k = standing k := by
        unfold withoutToken
        simp
      rw [hsame]
      cases attempts <;> exact hk
    | some token =>
      cases attempts with
      | none =>
        have hnil : t.pruned key later = [] := by
          by_contra hne
          rw [if_neg hne] at hfst
          contradiction
        unfold withoutToken
        split_ifs with heq
        · subst heq
          have hfilter := hk.filter fun e => !decide (some token = some e.token)
          rw [hstored, hnil, List.filter_nil] at hfilter
          rw [hstored, hnil]
          exact hfilter
        · exact hk
      | some attempts =>
        have hattempts : u.stored key = attempts := by
          rw [hstored]
          split_ifs at hfst
          exact (Option.some.inj hfst).symm
        have htokens : (attempts.map ThrottleEvent.token).Nodup := by
          rw [← hattempts, hstored, hpruned]
          exact hnodup.sublist (List.filter_sublist.map _)
        dsimp only
        rw [stored_insert]
        unfold withoutToken
        split_ifs with heq
        · subst heq
          rw [eraseP_eq_filter htokens, ← hattempts]
          exact hk.filter _
        · exact hk

end Tracks

/-! ## The configuration and the ceiling -/

/-- An operation changes neither the limit nor the window, and leaves the number of tracked keys below the
ceiling. -/
structure Within (t t' : SlidingWindowThrottle) : Prop where
  maxEvents : t'.maxEvents = t.maxEvents
  windowSeconds : t'.windowSeconds = t.windowSeconds
  size : t.failures.size ≤ maxTrackedKeys → t'.failures.size ≤ maxTrackedKeys

theorem Within.trans {t t' t'' : SlidingWindowThrottle} (h : Within t t') (h' : Within t' t'') : Within t t'' :=
  ⟨h'.maxEvents.trans h.maxEvents, h'.windowSeconds.trans h.windowSeconds, fun hsize => h'.size (h.size hsize)⟩

theorem Within.window {t t' : SlidingWindowThrottle} (h : Within t t') : t'.window = t.window :=
  congrArg Int.cast h.windowSeconds

theorem within_live (t : SlidingWindowThrottle) (key : String) (now : ℚ) : Within t (t.live key now).2 :=
  have hframe := live_frame t key now
  ⟨hframe.1, hframe.2.1, hframe.2.2.trans⟩

theorem within_record (t : SlidingWindowThrottle) (key : String) (r : Readings) (token : String) :
    Within t (t.record key r token).2 := by
  have hlive := within_live t key r.looked
  have hframe := roomFor_frame (t.live key r.looked).2 r.swept
  have hroom : Within t ((t.live key r.looked).2.roomFor r.swept) :=
    hlive.trans ⟨hframe.1, hframe.2.1, hframe.2.2.trans⟩
  rcases record_cases t key r token with ⟨u, hu, hrecord, hspace⟩ | ⟨hrecord, -⟩
  · have hwithin : Within t u := by
      rcases hu with rfl | rfl
      · exact hlive
      · exact hroom
    rw [hrecord]
    refine ⟨hwithin.maxEvents, hwithin.windowSeconds, fun hsize => ?_⟩
    have hle := hwithin.size hsize
    dsimp only
    rw [Dict.size_insert]
    split_ifs with hpresent
    · exact hle
    · have := hspace.resolve_right hpresent
      omega
  · rw [hrecord]
    exact hroom

theorem within_aconsume (t : SlidingWindowThrottle) (key : String) (r : Readings) (token : String) :
    Within t (t.aconsume key r token).2 := by
  have hlive := within_live t key r.checked
  unfold aconsume check
  dsimp only
  split_ifs
  · exact hlive
  · exact hlive.trans (within_record _ key r token)

theorem within_arelease (t : SlidingWindowThrottle) (key : String) (token : Option String) (now : ℚ) :
    Within t (t.arelease key token now) := by
  have hlive := within_live t key now
  have hfst := live_fst t key now
  have hstored := stored_live t key now key
  rw [if_pos rfl] at hstored
  unfold arelease
  cases hcase : t.live key now with
  | mk attempts u =>
    rw [hcase] at hlive hfst hstored
    cases attempts with
    | none => exact hlive
    | some attempts =>
      cases token with
      | none => exact hlive
      | some token =>
        refine ⟨hlive.maxEvents, hlive.windowSeconds, fun hsize => ?_⟩
        have hpresent : (u.failures.get? key).isSome := by
          by_contra habsent
          rw [Option.not_isSome_iff_eq_none] at habsent
          unfold stored at hstored
          rw [habsent] at hstored
          rw [← hstored] at hfst
          contradiction
        dsimp only
        rw [Dict.size_insert, if_pos hpresent]
        exact hlive.size hsize

theorem within_areset (t : SlidingWindowThrottle) (key : String) : Within t (t.areset key) :=
  ⟨rfl, rfl, (Dict.size_erase_le _ _).trans⟩

/-- What a reservation does: it is refused at the limit, or recorded, or fails open for want of room. -/
theorem Tracks.aconsume {now : ℚ} {standing : String → List ThrottleEvent} (h : t.Tracks now standing)
    {r : Readings} (hle : now ≤ r.checked) (hlimit : 1 ≤ t.maxEvents) (key token : String) :
    ((t.aconsume key r token).1 = .error .rateLimited ∧
        t.maxEvents ≤ (counting t.window r.checked (standing key)).length ∧
        (t.aconsume key r token).2.Tracks r.recorded standing) ∨
      (counting t.window r.checked (standing key)).length < t.maxEvents ∧
        (((t.aconsume key r token).1 = .ok (some token) ∧
            (t.aconsume key r token).2.Tracks r.recorded (withEvent standing key ⟨r.recorded, token⟩)) ∨
          ((t.aconsume key r token).1 = .ok none ∧ (t.aconsume key r token).2.Tracks r.recorded standing ∧
            maxTrackedKeys ≤ t.failures.size)) := by
  have hcheck := h.check hle hlimit key
  have hlive := h.live hle key
  have hrecorded : r.checked ≤ r.recorded := r.checked_le.trans ((r.looked_le 0).trans (r.swept_le 0))
  have hrecord := hlive.record r.checked_le key token
  have hsize := (live_frame t key r.checked).2.2
  have hsnd : (t.check key r.checked).2 = (t.live key r.checked).2 := rfl
  unfold SlidingWindowThrottle.aconsume
  cases hcase : t.check key r.checked with
  | mk decision u =>
    rw [hcase] at hcheck hsnd
    dsimp only at hcheck hsnd
    subst hsnd
    cases decision with
    | error e =>
      left
      exact ⟨rfl, hcheck.mp rfl, hlive.mono hrecorded⟩
    | ok passed =>
      right
      have hbelow : ¬ t.maxEvents ≤ (counting t.window r.checked (standing key)).length := by
        intro hfull
        have herror := hcheck.mpr hfull
        contradiction
      refine ⟨not_le.mp hbelow, ?_⟩
      rcases hrecord with ⟨htoken, htracks⟩ | ⟨htoken, htracks, hfull⟩
      · exact .inl ⟨congrArg Except.ok htoken, htracks⟩
      · exact .inr ⟨congrArg Except.ok htoken, htracks, hfull.trans hsize⟩

end SlidingWindowThrottle

/-! ## Traces -/

/-- An operation on a throttle. -/
inductive ThrottleOp
  | check (key : String)
  /-- The token is what `uuid4` draws. -/
  | aconsume (key token : String)
  | arelease (key : String) (token : Option String)
  | areset (key : String)

/-- A throttle after some operations, with the last reading of the clock, the events that stand, and the tokens
that were drawn. -/
structure ThrottleSys where
  throttle : SlidingWindowThrottle
  now : ℚ
  standing : String → List ThrottleEvent
  drawn : List String

namespace ThrottleSys

open SlidingWindowThrottle

/-- The event that an operation records, if its answer carries a token. -/
def recordedAs (standing : String → List ThrottleEvent) (key : String) (time : ℚ) :
    Except RateLimited (Option String) → String → List ThrottleEvent
  | .ok (some token) => withEvent standing key ⟨time, token⟩
  | _ => standing

/-- One operation with its readings of the clock. -/
def exec : ThrottleOp × Readings → ThrottleSys → ThrottleSys
  | (.check key, r), s => { s with throttle := (s.throttle.check key r.checked).2, now := r.recorded }
  | (.aconsume key token, r), s =>
    let (answer, throttle) := s.throttle.aconsume key r token
    ⟨throttle, r.recorded, recordedAs s.standing key r.recorded answer, token :: s.drawn⟩
  | (.arelease key token, r), s =>
    { s with
      throttle := s.throttle.arelease key token r.checked
      now := r.recorded
      standing := withoutToken s.standing key token }
  | (.areset key, r), s =>
    { s with throttle := s.throttle.areset key, now := r.recorded, standing := withoutKey s.standing key }

/-- The clock does not go back, and `uuid4` draws new tokens. -/
def allowed (s : ThrottleSys) : ThrottleOp × Readings → Prop
  | (.aconsume _ token, r) => s.now ≤ r.checked ∧ token ∉ s.drawn
  | (_, r) => s.now ≤ r.checked

/-- All traces on a throttle that begins with no events. -/
def machine (maxEvents : ℕ) (windowSeconds : ℤ) : Machine ThrottleSys (ThrottleOp × Readings) where
  init s := s.throttle = .new maxEvents windowSeconds ∧ (∀ key, s.standing key = []) ∧ s.drawn = []
  allowed := allowed
  exec := exec

/-- What every operation keeps. -/
structure Inv (maxEvents : ℕ) (windowSeconds : ℤ) (s : ThrottleSys) : Prop where
  limit : s.throttle.maxEvents = maxEvents
  width : s.throttle.windowSeconds = windowSeconds
  size : s.throttle.failures.size ≤ maxTrackedKeys
  tracks : s.throttle.Tracks s.now s.standing
  bounded : ∀ key, SlidingWindow.Bounded ThrottleEvent.time (windowSeconds : ℚ) maxEvents (s.standing key)
  /-- The events of a key have tokens that were drawn, each its own. -/
  drawn : ∀ key, ∀ e ∈ s.standing key, e.token ∈ s.drawn
  nodup : ∀ key, ((s.standing key).map ThrottleEvent.token).Nodup

variable {maxEvents : ℕ} {windowSeconds : ℤ} {s : ThrottleSys}

/-- Events that are taken away leave the invariant. -/
theorem Inv.fewer (h : s.Inv maxEvents windowSeconds) {throttle : SlidingWindowThrottle} {now : ℚ}
    {standing : String → List ThrottleEvent} (hwithin : Within s.throttle throttle)
    (htracks : throttle.Tracks now standing) (hsub : ∀ key, (standing key).Sublist (s.standing key)) :
    Inv maxEvents windowSeconds ⟨throttle, now, standing, s.drawn⟩ where
  limit := hwithin.maxEvents.trans h.limit
  width := hwithin.windowSeconds.trans h.width
  size := hwithin.size h.size
  tracks := htracks
  bounded key := (h.bounded key).sublist (hsub key)
  drawn key e he := h.drawn key e ((hsub key).mem he)
  nodup key := (h.nodup key).sublist ((hsub key).map _)

/-- Every operation keeps the invariant. -/
theorem Inv.exec (hmax : 1 ≤ maxEvents) (h : s.Inv maxEvents windowSeconds) {i : ThrottleOp × Readings}
    (ha : allowed s i) : (exec i s).Inv maxEvents windowSeconds := by
  obtain ⟨op, r⟩ := i
  have hlast : r.checked ≤ r.recorded := r.checked_le.trans ((r.looked_le 0).trans (r.swept_le 0))
  cases op with
  | check key =>
    exact h.fewer (within_live _ key r.checked) ((h.tracks.live ha key).mono hlast) fun _ => .refl _
  | arelease key token =>
    refine h.fewer (within_arelease _ key token r.checked)
      ((h.tracks.arelease ha key token (h.nodup key)).mono hlast) fun k => ?_
    unfold withoutToken
    split_ifs
    · exact List.filter_sublist
    · exact .refl _
  | areset key =>
    refine h.fewer (within_areset _ key) ((h.tracks.areset key).mono (le_trans ha hlast)) fun k => ?_
    unfold withoutKey
    split_ifs
    · exact List.nil_sublist _
    · exact .refl _
  | aconsume key token =>
    obtain ⟨hle, hfresh⟩ := ha
    have hwithin := within_aconsume s.throttle key r token
    have hwindow : s.throttle.window = (windowSeconds : ℚ) := congrArg Int.cast h.width
    have hkeep : ∀ {throttle : SlidingWindowThrottle}, Within s.throttle throttle →
        throttle.Tracks r.recorded s.standing →
        Inv maxEvents windowSeconds ⟨throttle, r.recorded, s.standing, token :: s.drawn⟩ := by
      intro throttle hw ht
      have hsame := h.fewer hw ht fun _ => .refl _
      exact { hsame with drawn := fun k e he => List.mem_cons_of_mem _ (h.drawn k e he) }
    have hspec := h.tracks.aconsume hle (hmax.trans_eq h.limit.symm) key token
    unfold ThrottleSys.exec
    dsimp only
    rcases hspec with ⟨hanswer, -, htracks⟩ | ⟨hroom, ⟨hanswer, htracks⟩ | ⟨hanswer, htracks, -⟩⟩
    · rw [hanswer]
      exact hkeep hwithin htracks
    · rw [hanswer]
      refine ⟨hwithin.maxEvents.trans h.limit, hwithin.windowSeconds.trans h.width,
        hwithin.size h.size, htracks, fun k => ?_, fun k e he => ?_, fun k => ?_⟩
      · simp only [recordedAs, withEvent]
        split_ifs with hk
        · subst hk
          rw [hwindow, h.limit] at hroom
          exact (h.bounded key).append hlast hroom
        · exact h.bounded k
      · simp only [recordedAs, withEvent] at he
        split_ifs at he with hk
        · rcases List.mem_append.mp he with he | he
          · exact List.mem_cons_of_mem _ (h.drawn k e he)
          · obtain rfl := List.mem_singleton.mp he
            exact List.mem_cons_self
        · exact List.mem_cons_of_mem _ (h.drawn k e he)
      · simp only [recordedAs, withEvent]
        split_ifs with hk
        · rw [List.map_append, List.nodup_append]
          refine ⟨h.nodup k, List.nodup_singleton _, fun a ha b hb hab => ?_⟩
          obtain ⟨e, he, rfl⟩ := List.mem_map.mp ha
          obtain rfl := List.mem_singleton.mp hb
          exact hfresh (hab ▸ h.drawn k e he)
        · exact h.nodup k
    · rw [hanswer]
      exact hkeep hwithin htracks

theorem inv (hmax : 1 ≤ maxEvents) (h : (machine maxEvents windowSeconds).Reach s) :
    s.Inv maxEvents windowSeconds := by
  refine h.invariant (fun s hs => ?_) fun s i _ hs ha => hs.exec hmax ha
  obtain ⟨hthrottle, hstanding, hdrawn⟩ := hs
  refine ⟨by rw [hthrottle]; rfl, by rw [hthrottle]; rfl, by rw [hthrottle]; exact Nat.zero_le _, fun key => ?_,
    fun key t => ?_, fun key e he => ?_, fun key => ?_⟩
  · rw [hstanding key, hthrottle]
    exact .nil _
  · rw [hstanding key]
    exact Nat.zero_le _
  · rw [hstanding key] at he
    contradiction
  · rw [hstanding key]
    exact List.nodup_nil

end ThrottleSys

/-- The throttle never over-admits. Of the events that were recorded and neither released nor reset, no stretch of
the length of the window has more than `maxEvents` of one key, and no more than ten thousand keys are tracked. A
check and a reservation are refused exactly when the current window has `maxEvents` of them. A release removes the
event of its key with its token, which no other event has, and nothing else. -/
theorem window_exact {maxEvents : ℕ} {windowSeconds : ℤ} (hmax : 1 ≤ maxEvents) {s : ThrottleSys}
    (h : (ThrottleSys.machine maxEvents windowSeconds).Reach s) :
    (∀ key t, (SlidingWindow.within ThrottleEvent.time (windowSeconds : ℚ) t (s.standing key)).length ≤
        maxEvents) ∧
      s.throttle.failures.size ≤ maxTrackedKeys ∧
      (∀ key, ((s.standing key).map ThrottleEvent.token).Nodup) ∧
      ∀ (key : String) (r : Readings), s.now ≤ r.checked →
        ((s.throttle.check key r.checked).1 = .error .rateLimited ↔
          (SlidingWindow.within ThrottleEvent.time (windowSeconds : ℚ) r.checked (s.standing key)).length =
            maxEvents) ∧
        (∀ token, (s.throttle.aconsume key r token).1 = .error .rateLimited ↔
          (SlidingWindow.within ThrottleEvent.time (windowSeconds : ℚ) r.checked (s.standing key)).length =
            maxEvents) ∧
        ∀ token k, SlidingWindow.live ThrottleEvent.time (windowSeconds : ℚ) r.checked
            ((s.throttle.arelease key token r.checked).stored k) =
          (SlidingWindow.live ThrottleEvent.time (windowSeconds : ℚ) r.checked (s.throttle.stored k)).filter
            fun e => !decide (key = k ∧ token = some e.token) := by
  have hinv := ThrottleSys.inv hmax h
  have hwindow : s.throttle.window = (windowSeconds : ℚ) := congrArg Int.cast hinv.width
  refine ⟨hinv.bounded, hinv.size, hinv.nodup, fun key r hle => ?_⟩
  -- At the limit means with as many events as the limit, since there are never more.
  have hlimit : maxEvents ≤ (SlidingWindowThrottle.counting s.throttle.window r.checked (s.standing key)).length ↔
      (SlidingWindow.within ThrottleEvent.time (windowSeconds : ℚ) r.checked (s.standing key)).length =
        maxEvents := by
    have hbound := hinv.bounded key r.checked
    have hpast : ∀ e ∈ s.standing key, e.time ≤ r.checked := fun e he => ((hinv.tracks key).past e he).trans hle
    rw [SlidingWindow.within_eq_live hpast] at hbound ⊢
    rw [hwindow]
    exact ⟨fun hfull => le_antisymm hbound hfull, fun heq => heq.ge⟩
  have hone : 1 ≤ s.throttle.maxEvents := hmax.trans_eq hinv.limit.symm
  refine ⟨?_, fun token => ?_, fun token k => ?_⟩
  · rw [hinv.tracks.check hle hone key, hinv.limit, hlimit]
  · rw [← hlimit]
    rcases hinv.tracks.aconsume hle hone key token with
      ⟨hanswer, hfull, -⟩ | ⟨hroom, ⟨hanswer, -⟩ | ⟨hanswer, -, -⟩⟩
    · rw [hinv.limit] at hfull
      exact ⟨fun _ => hfull, fun _ => hanswer⟩
    · rw [hanswer]
      rw [hinv.limit] at hroom
      exact ⟨fun hc => by contradiction, fun hfull => absurd hroom (not_lt.mpr hfull)⟩
    · rw [hanswer]
      rw [hinv.limit] at hroom
      exact ⟨fun hc => by contradiction, fun hfull => absurd hroom (not_lt.mpr hfull)⟩
  · have hbefore := (hinv.tracks k).live r.checked hle
    have hafter := (hinv.tracks.arelease hle key token (hinv.nodup key) k).live r.checked le_rfl
    rw [(SlidingWindowThrottle.within_arelease s.throttle key token r.checked).window, hwindow] at hafter
    rw [hwindow] at hbefore
    rw [hafter, hbefore]
    unfold SlidingWindowThrottle.withoutToken
    split_ifs with hk
    · unfold SlidingWindow.live
      rw [List.filter_filter, List.filter_filter]
      refine List.filter_congr fun e _ => ?_
      simp [hk, Bool.and_comm]
    · refine (List.filter_eq_self.mpr fun e _ => ?_).symm
      simp [hk]

/-- One event of one key, with a limit of one. -/
def ThrottleSys.spent : ThrottleSys :=
  .exec (.aconsume "key" "token", .once 0) ⟨.new 1 60, 0, fun _ => [], []⟩

theorem ThrottleSys.spent_reach : (ThrottleSys.machine 1 60).Reach ThrottleSys.spent := by
  have hinit : (ThrottleSys.machine 1 60).init ⟨.new 1 60, 0, fun _ => [], []⟩ := ⟨rfl, fun _ => rfl, rfl⟩
  have hallowed : (ThrottleSys.machine 1 60).allowed ⟨.new 1 60, 0, fun _ => [], []⟩
      (.aconsume "key" "token", .once 0) := ⟨le_refl (0 : ℚ), List.not_mem_nil⟩
  exact .step _ (.init hinit) hallowed

/-- The next reservation of the key is refused within the window. -/
theorem window_exact_spent : (ThrottleSys.spent.throttle.aconsume "key" (.once 59) "other").1 =
    .error .rateLimited := by
  have hexact := (window_exact le_rfl ThrottleSys.spent_reach).2.2.2 "key" (.once 59) (by decide +kernel)
  refine (hexact.2.1 "other").mpr ?_
  decide +kernel

end Dibs
