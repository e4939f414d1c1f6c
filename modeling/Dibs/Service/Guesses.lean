import Mathlib.Tactic.Linarith
import Dibs.Service.Login

/-!
# Pending guesses

The requests that log in with one email, interleaved where they verify the password. Each holds an event in the
window of the email while it is pending, and a failed one keeps it. A success forgets the whole window, though,
with the events of the requests that are still pending.

`guesses_counted_iff` says that every pending and every failed guess counts, and so that no more are pending than
the limit, in exactly the runs in which requests succeed only while no other is pending.
-/

namespace Dibs

/-! ## A throttle that tracks one key -/

namespace SlidingWindowThrottle

/-- No other key is tracked. -/
def OnlyKey (t : SlidingWindowThrottle) (key : String) : Prop := ∀ k, key ≠ k → t.failures.get? k = none

namespace OnlyKey

variable {t : SlidingWindowThrottle} {key : String}

/-- Then at most one key is. -/
theorem size_le (h : t.OnlyKey key) : t.failures.size ≤ 1 := by
  have hkeys : ∀ k ∈ t.failures.entries.map Prod.fst, k = key := by
    intro k hk
    by_contra hne
    have hsome := (t.failures.mem_keys_iff k).mp hk
    rw [h k (Ne.symm hne)] at hsome
    contradiction
  have hreplicate := List.eq_replicate_of_mem hkeys
  have hnodup := t.failures.nodup
  rw [hreplicate, List.nodup_replicate, List.length_map] at hnodup
  exact hnodup

theorem insert (h : t.OnlyKey key) (events : List ThrottleEvent) :
    OnlyKey { t with failures := t.failures.insert key events } key := by
  intro k hk
  rw [Dict.get?_insert_ne _ _ hk]
  exact h k hk

theorem areset (h : t.OnlyKey key) : (t.areset key).OnlyKey key := by
  intro k hk
  unfold SlidingWindowThrottle.areset
  rw [Dict.get?_erase_ne _ hk]
  exact h k hk

theorem live (h : t.OnlyKey key) (now : ℚ) : (t.live key now).2.OnlyKey key := by
  unfold SlidingWindowThrottle.live
  cases t.failures.get? key with
  | none => exact h
  | some attempts =>
    dsimp only
    split_ifs
    · exact h.areset
    · exact h.insert _

theorem arelease (h : t.OnlyKey key) (token : Option String) (now : ℚ) :
    (t.arelease key token now).OnlyKey key := by
  have hlive := h.live now
  unfold SlidingWindowThrottle.arelease
  cases hcase : t.live key now with
  | mk attempts u =>
    rw [hcase] at hlive
    cases attempts with
    | none => exact hlive
    | some attempts =>
      cases token with
      | none => exact hlive
      | some token => exact hlive.insert _

theorem record (h : t.OnlyKey key) (r : Readings) (token : String) : (t.record key r token).2.OnlyKey key := by
  have hlive := h.live r.looked
  have hroom : (t.live key r.looked).2.roomFor r.swept = (t.live key r.looked).2 := by
    have hsize := hlive.size_le
    unfold roomFor maxTrackedKeys
    exact if_neg (by omega)
  rcases record_cases t key r token with ⟨u, hu, hrecord, -⟩ | ⟨hrecord, -⟩
  · rw [hroom, or_self] at hu
    subst hu
    rw [hrecord]
    exact hlive.insert _
  · rw [hrecord, hroom]
    exact hlive

theorem aconsume (h : t.OnlyKey key) (r : Readings) (token : String) : (t.aconsume key r token).2.OnlyKey key := by
  unfold SlidingWindowThrottle.aconsume check
  dsimp only
  split_ifs
  · exact h.live r.checked
  · exact (h.live r.checked).record r token

end OnlyKey

end SlidingWindowThrottle

/-- What a request does before its verification tracks no other key. -/
theorem LoginRoute.reserve_onlyKey {A : Type} {email : SlidingWindowThrottle} {key : String}
    (h : email.OnlyKey key) (address : A) (r : Readings) (token : String)
    (consume : A → Except RateLimited (Option String) × A) (released : ℚ) :
    (reserve email address key r token consume released).2.1.OnlyKey key := by
  have hconsumed := h.aconsume r token
  unfold reserve
  cases hemail : email.aconsume key r token with
  | mk answer email' =>
    rw [hemail] at hconsumed
    cases answer with
    | error e => exact hconsumed
    | ok emailToken =>
      dsimp only
      cases consume address with
      | mk answer address' =>
        cases answer with
        | error e => exact hconsumed.arelease emailToken released
        | ok addressToken => exact hconsumed

/-! ## The requests for one email -/

/-- The email throttle with the verifications that are pending and those that failed since the last success, by
the tokens of their reservations. -/
structure GuessSys where
  email : SlidingWindowThrottle
  /-- The beginning of the window in which everything happens. -/
  opened : ℚ
  /-- The last reading of the clock. -/
  now : ℚ
  pending : List (Option String)
  failed : List (Option String)
  /-- The tokens that were drawn. -/
  drawn : List String

/-- A request runs up to its verification, with what the address throttle answers, or from there to its end. -/
inductive GuessStep
  | start (r : Readings) (token : String) (address : Except RateLimited (Option String)) (released : ℚ)
  | finish (guess : Option String) (how : Verification) (released : ℚ)

namespace GuessSys

open SlidingWindowThrottle

variable (key : String)

/-- One step of one request. -/
def exec : GuessStep → GuessSys → GuessSys
  | .start r token address released, s =>
    match LoginRoute.reserve s.email () key r token (fun _ => (address, ())) released with
    | (.error _, email, _) => { s with email := email, now := released, drawn := token :: s.drawn }
    | (.ok tokens, email, _) =>
      { s with email := email, now := released, pending := s.pending ++ [tokens.1], drawn := token :: s.drawn }
  | .finish guess how released, s =>
    { s with
      email := (LoginRoute.conclude s.email () key guess none released (fun _ _ => ()) how).1
      now := released
      pending := s.pending.erase guess
      failed := match how with
        | .success => []
        | .invalidCredentials => s.failed ++ [guess]
        | .aborted => s.failed }

/-- The clock does not go back and stays within one window, and `uuid4` draws new tokens. -/
def allowed (windowSeconds : ℤ) (s : GuessSys) : GuessStep → Prop
  | .start r token _ released =>
    s.now ≤ r.checked ∧ r.recorded ≤ released ∧ released < s.opened + windowSeconds ∧ token ∉ s.drawn
  | .finish guess _ released => s.now ≤ released ∧ released < s.opened + windowSeconds ∧ guess ∈ s.pending

instance (windowSeconds : ℤ) (s : GuessSys) : ∀ i, Decidable (allowed windowSeconds s i)
  | .start r token _ released => inferInstanceAs (Decidable
      (s.now ≤ r.checked ∧ r.recorded ≤ released ∧ released < s.opened + windowSeconds ∧ token ∉ s.drawn))
  | .finish guess _ released => inferInstanceAs (Decidable
      (s.now ≤ released ∧ released < s.opened + windowSeconds ∧ guess ∈ s.pending))

/-- All interleavings of the requests for one email, on a throttle that begins with no events. -/
def machine (maxEvents : ℕ) (windowSeconds : ℤ) : Machine GuessSys GuessStep where
  init s := s.email = .new maxEvents windowSeconds ∧ s.opened = s.now ∧ s.pending = [] ∧ s.failed = [] ∧ s.drawn = []
  allowed := allowed windowSeconds
  exec := exec key

instance (maxEvents : ℕ) (windowSeconds : ℤ) (s : GuessSys) (i : GuessStep) :
    Decidable ((machine key maxEvents windowSeconds).allowed s i) :=
  inferInstanceAs (Decidable (allowed windowSeconds s i))

/-- The event of a verification is one of the live events of the email. -/
def Counted (s : GuessSys) (guess : Option String) : Prop :=
  ∃ e ∈ SlidingWindow.live ThrottleEvent.time s.email.window s.now (s.email.stored key), guess = some e.token

instance (s : GuessSys) (guess : Option String) : Decidable (s.Counted key guess) :=
  inferInstanceAs (Decidable (∃ e ∈ SlidingWindow.live ThrottleEvent.time s.email.window s.now
    (s.email.stored key), guess = some e.token))

/-- No more verifications are pending than the limit, and those that failed since the last success and those that
are pending count. -/
structure Bounded (maxEvents : ℕ) (s : GuessSys) : Prop where
  inFlight : s.pending.length ≤ maxEvents
  failed : ∀ guess ∈ s.failed, s.Counted key guess
  pending : ∀ guess ∈ s.pending, s.Counted key guess

/-- A request does not succeed while another is pending. -/
def Alone (s : GuessSys) : GuessStep → Prop
  | .finish guess .success _ => s.pending.erase guess = []
  | _ => True

instance (s : GuessSys) : ∀ i, Decidable (s.Alone i)
  | .start .. => inferInstanceAs (Decidable True)
  | .finish guess .success _ => inferInstanceAs (Decidable (s.pending.erase guess = []))
  | .finish _ .invalidCredentials _ => inferInstanceAs (Decidable True)
  | .finish _ .aborted _ => inferInstanceAs (Decidable True)

/-! ### The invariant -/

/-- What the events that stand have to do with the verifications. -/
structure Held (maxEvents : ℕ) (windowSeconds : ℤ) (s : GuessSys) (standing : String → List ThrottleEvent) :
    Prop where
  limit : s.email.maxEvents = maxEvents
  width : s.email.windowSeconds = windowSeconds
  only : s.email.OnlyKey key
  recorded : s.email.Recorded s.now s.drawn standing
  opened : s.opened ≤ s.now
  /-- All events are in the one window, and those that stand still count. -/
  since : ∀ e ∈ standing key, s.opened ≤ e.time
  inside : ∀ e ∈ standing key, s.now - windowSeconds < e.time
  /-- They are those of the verifications that failed or are pending. -/
  accounts : ((standing key).map fun e => some e.token).Perm (s.failed ++ s.pending)
  bound : (standing key).length ≤ maxEvents

/-- What every step keeps, as long as requests succeed alone. -/
def Inv (maxEvents : ℕ) (windowSeconds : ℤ) (s : GuessSys) : Prop :=
  ∃ standing, s.Held key maxEvents windowSeconds standing

variable {key} {maxEvents : ℕ} {windowSeconds : ℤ} {s : GuessSys} {standing : String → List ThrottleEvent}

/-- The events that stand are counted at any later moment in the window. -/
theorem Held.live_eq (h : s.Held key maxEvents windowSeconds standing) {t : ℚ}
    (hin : ∀ e ∈ standing key, t - windowSeconds < e.time) :
    SlidingWindow.live ThrottleEvent.time s.email.window t (standing key) = standing key := by
  refine List.filter_eq_self.mpr fun e he => ?_
  have hwindow : s.email.window = windowSeconds := congrArg Int.cast h.width
  rw [hwindow]
  simpa using hin e he

/-- All events of the one window count at its moments. -/
theorem Held.later (h : s.Held key maxEvents windowSeconds standing) {t : ℚ}
    (ht : t < s.opened + windowSeconds) : ∀ e ∈ standing key, t - windowSeconds < e.time := by
  intro e he
  have hsince := h.since e he
  linarith

/-- The property holds of what is held. -/
theorem Inv.bounded (h : s.Inv key maxEvents windowSeconds) : s.Bounded key maxEvents := by
  obtain ⟨standing, h⟩ := h
  have hlive := (h.recorded.tracks key).live s.now le_rfl
  rw [h.live_eq h.inside] at hlive
  have hcounted : ∀ guess ∈ s.failed ++ s.pending, s.Counted key guess := by
    intro guess hmem
    obtain ⟨e, he, rfl⟩ := List.mem_map.mp (h.accounts.mem_iff.mpr hmem)
    refine ⟨e, ?_, rfl⟩
    rw [hlive]
    exact he
  have hlength := h.accounts.length_eq
  rw [List.length_map, List.length_append] at hlength
  exact ⟨by have := h.bound; omega, fun guess hmem => hcounted guess (List.mem_append_left _ hmem),
    fun guess hmem => hcounted guess (List.mem_append_right _ hmem)⟩

/-- A request that is refused, or that both throttles admit, keeps the invariant. -/
theorem Held.start (hmax : 1 ≤ maxEvents) (h : s.Held key maxEvents windowSeconds standing) {r : Readings}
    {token : String} {address : Except RateLimited (Option String)} {released : ℚ}
    (ha : allowed windowSeconds s (.start r token address released)) :
    (exec key (.start r token address released) s).Inv key maxEvents windowSeconds := by
  obtain ⟨hle, hreleased, hwindow, hnew⟩ := ha
  have hchecked : r.checked ≤ r.recorded := r.checked_le.trans ((r.looked_le 0).trans (r.swept_le 0))
  have hopened : s.opened ≤ r.recorded := h.opened.trans (hle.trans hchecked)
  have hsize : s.email.failures.size < maxTrackedKeys := h.only.size_le.trans_lt (by decide)
  have honly := LoginRoute.reserve_onlyKey h.only () r token (fun _ => (address, ())) released
  obtain ⟨email', hframe, hcases⟩ := LoginRoute.reserve_spec h.recorded () key hle (hmax.trans_eq h.limit.symm)
    hsize hnew (fun _ => (address, ())) hreleased
  unfold GuessSys.exec
  dsimp only
  rcases hcases with ⟨hreserve, hrecorded⟩ | ⟨_, -, hreserve, hrecorded⟩ |
    ⟨addressToken, _, -, hreserve, hroom, hrecorded⟩
  · rw [hreserve] at honly ⊢
    exact ⟨standing, hframe.maxEvents.trans h.limit, hframe.windowSeconds.trans h.width, honly,
      hrecorded.mono hreleased fun _ ht => ht, hopened.trans hreleased, h.since, h.later hwindow, h.accounts, h.bound⟩
  · rw [hreserve] at honly ⊢
    exact ⟨standing, hframe.maxEvents.trans h.limit, hframe.windowSeconds.trans h.width, honly, hrecorded,
      hopened.trans hreleased, h.since, h.later hwindow, h.accounts, h.bound⟩
  · rw [hreserve] at honly ⊢
    have hkey : withEvent standing key ⟨r.recorded, token⟩ key = standing key ++ [⟨r.recorded, token⟩] :=
      if_pos rfl
    -- Everything in the window counted when the request was admitted.
    unfold counting at hroom
    rw [h.live_eq (h.later ((hchecked.trans hreleased).trans_lt hwindow)), h.limit] at hroom
    refine ⟨withEvent standing key ⟨r.recorded, token⟩, hframe.maxEvents.trans h.limit,
      hframe.windowSeconds.trans h.width, honly, hrecorded.mono hreleased fun _ ht => ht, hopened.trans hreleased,
      fun e he => ?_, fun e he => ?_, ?_, ?_⟩
    · rw [hkey] at he
      rcases List.mem_append.mp he with he | he
      · exact h.since e he
      · obtain rfl := List.mem_singleton.mp he
        exact hopened
    · rw [hkey] at he
      rcases List.mem_append.mp he with he | he
      · exact h.later hwindow e he
      · obtain rfl := List.mem_singleton.mp he
        dsimp only
        linarith
    · rw [hkey, List.map_append]
      dsimp only
      rw [← List.append_assoc]
      exact h.accounts.append_right _
    · rw [hkey, List.length_append]
      exact hroom

/-- A verification that ends keeps it, unless it is a success that is not alone. -/
theorem Held.finish (h : s.Held key maxEvents windowSeconds standing) {guess : Option String}
    {how : Verification} {released : ℚ} (ha : allowed windowSeconds s (.finish guess how released))
    (halone : s.Alone (.finish guess how released)) :
    (exec key (.finish guess how released) s).Inv key maxEvents windowSeconds := by
  obtain ⟨hle, hwindow, hmem⟩ := ha
  have hpending : (s.failed ++ s.pending).Perm (s.failed ++ guess :: s.pending.erase guess) :=
    (List.perm_cons_erase hmem).append_left _
  cases how with
  | success =>
    have hnil : s.pending.erase guess = [] := halone
    have hkey : withoutKey standing key key = [] := if_pos rfl
    refine ⟨withoutKey standing key, h.limit, h.width, h.only.areset,
      (h.recorded.areset key).mono hle fun _ ht => ht, h.opened.trans hle, ?_, ?_, ?_, ?_⟩
    · rw [hkey]
      simp
    · rw [hkey]
      simp
    · rw [hkey]
      unfold GuessSys.exec
      dsimp only
      rw [hnil]
      exact .refl _
    · rw [hkey]
      exact Nat.zero_le _
  | invalidCredentials =>
    refine ⟨standing, h.limit, h.width, h.only, h.recorded.mono hle fun _ ht => ht, h.opened.trans hle, h.since,
      h.later hwindow, ?_, h.bound⟩
    unfold GuessSys.exec
    dsimp only
    rw [List.append_assoc]
    exact h.accounts.trans hpending
  | aborted =>
    have hwithin := within_arelease s.email key guess released
    have hkey : withoutToken standing key guess key =
        (standing key).filter fun e => !decide (guess = some e.token) := if_pos rfl
    have hnodup : ((standing key).map fun e => some e.token).Nodup := by
      have htokens := (h.recorded.nodup key).map (Option.some_injective String)
      rwa [List.map_map] at htokens
    -- The released event is the one of the verification.
    have haccounts : ((withoutToken standing key guess key).map fun e => some e.token).Perm
        (s.failed ++ s.pending.erase guess) := by
      have herase : (withoutToken standing key guess key).map (fun e => some e.token) =
          ((standing key).map fun e => some e.token).erase guess := by
        rw [hkey, hnodup.erase_eq_filter, List.filter_map]
        congr 1
        refine List.filter_congr fun e _ => ?_
        rw [Function.comp_apply, bne, beq_eq_decide, decide_eq_decide.mpr (eq_comm (a := guess))]
      have hnotFailed : guess ∉ s.failed := fun hfailed =>
        (List.disjoint_of_nodup_append (h.accounts.nodup_iff.mp hnodup)) hfailed hmem
      rw [herase, ← List.erase_append_right _ hnotFailed]
      exact h.accounts.erase guess
    refine ⟨withoutToken standing key guess, hwithin.maxEvents.trans h.limit, hwithin.windowSeconds.trans h.width,
      h.only.arelease guess released, h.recorded.arelease hle key guess, h.opened.trans hle, fun e he => ?_,
      fun e he => ?_, haccounts, ?_⟩
    · rw [hkey] at he
      exact h.since e (List.mem_of_mem_filter he)
    · rw [hkey] at he
      exact h.later hwindow e (List.mem_of_mem_filter he)
    · rw [hkey]
      exact (List.length_filter_le _ _).trans h.bound

/-- A success that is not alone forgets the others. -/
theorem not_bounded_of_not_alone {i : GuessStep} (h : ¬ s.Alone i) : ¬ (exec key i s).Bounded key maxEvents := by
  intro hbounded
  cases i with
  | start r token address released => exact h trivial
  | finish guess how released =>
    cases how with
    | invalidCredentials | aborted => exact h trivial
    | success =>
      obtain ⟨other, hother⟩ := List.exists_mem_of_ne_nil _ h
      obtain ⟨e, he, -⟩ := hbounded.pending other hother
      -- The reset left no event of the email.
      have hnone : (s.email.areset key).stored key = [] := by
        unfold SlidingWindowThrottle.areset
        rw [stored_erase, if_pos rfl]
      change e ∈ SlidingWindow.live _ _ _ ((s.email.areset key).stored key) at he
      rw [hnone] at he
      exact absurd he List.not_mem_nil

variable (key windowSeconds) in
theorem exactly (hmax : 1 ≤ maxEvents) :
    (machine key maxEvents windowSeconds).ExactlyWhen (Bounded key maxEvents) Alone where
  holds s h := by
    have hinv : s.Inv key maxEvents windowSeconds := by
      refine h.invariant (fun s hs => ?_) fun s i _ hs ha => ?_
      · obtain ⟨hemail, hopened, hpending, hfailed, hdrawn⟩ := hs
        refine ⟨fun _ => [], by rw [hemail]; rfl, by rw [hemail]; rfl, ?_, ?_, hopened.le, by simp, by simp, ?_,
          Nat.zero_le _⟩
        · rw [hemail]
          exact fun _ _ => rfl
        · rw [hemail]
          exact ⟨fun _ => .nil _, fun _ e he => absurd he List.not_mem_nil, fun _ => List.nodup_nil⟩
        · rw [hpending, hfailed]
          exact .refl _
      · obtain ⟨standing, hheld⟩ := hs
        cases i with
        | start r token address released => exact hheld.start hmax ha.1
        | finish guess how released => exact hheld.finish ha.1 ha.2
    exact hinv.bounded
  breaks s i _ _ hbad := not_bounded_of_not_alone hbad

end GuessSys

/-- Throughout a run of requests for one email, no more verifications are pending than the limit and each that is
pending or has failed since the last success counts, if and only if no request of the run succeeds while another
is pending. -/
theorem guesses_counted_iff {key : String} {maxEvents : ℕ} {windowSeconds : ℤ} (hmax : 1 ≤ maxEvents)
    {s : GuessSys} (hs : (GuessSys.machine key maxEvents windowSeconds).init s) {is : List GuessStep}
    (hr : (GuessSys.machine key maxEvents windowSeconds).Runs s is) :
    (GuessSys.machine key maxEvents windowSeconds).Always (GuessSys.Bounded key maxEvents) s is ↔
      (GuessSys.machine key maxEvents windowSeconds).EachStep GuessSys.Alone s is :=
  (GuessSys.exactly key windowSeconds hmax).always_iff hs hr

namespace GuessSys

/-- An email whose window has no events. -/
def fresh (maxEvents : ℕ) : GuessSys := ⟨.new maxEvents 60, 0, 0, [], [], []⟩

/-- A request that the address throttle admits. -/
def admitted (token : String) : GuessStep := .start (.once 0) token (.ok none) 0

/-- Two requests are pending, and one of them succeeds. -/
def overtaken : List GuessStep := [admitted "a", admitted "b", .finish (some "a") .success 0]

/-- Two more requests begin. -/
def crowded : List GuessStep := overtaken ++ [admitted "c", admitted "d"]

/-- The other one fails. -/
def guessed : List GuessStep := overtaken ++ [.finish (some "b") .invalidCredentials 0]

theorem overtaken_runs : (machine "email:a@example.com" 2 60).Runs (fresh 2) overtaken := by
  decide +kernel

end GuessSys

/-- The property does not hold throughout this run. -/
theorem guesses_counted_iff_overtaken : ¬ (GuessSys.machine "email:a@example.com" 2 60).Always
    (GuessSys.Bounded "email:a@example.com" 2) (GuessSys.fresh 2) GuessSys.overtaken := by
  have hinit : (GuessSys.machine "email:a@example.com" 2 60).init (GuessSys.fresh 2) := ⟨rfl, rfl, rfl, rfl, rfl⟩
  rw [guesses_counted_iff (by decide) hinit GuessSys.overtaken_runs]
  decide +kernel

/-- With two attempts in a window, a request succeeds while another is pending. Then three can be pending, and the
failure of the one that was pending counts nowhere. -/
theorem pending_guess_uncounted :
    (GuessSys.machine "email:a@example.com" 2 60).init (GuessSys.fresh 2) ∧
      ((GuessSys.machine "email:a@example.com" 2 60).Runs (GuessSys.fresh 2) GuessSys.crowded ∧
        ((GuessSys.machine "email:a@example.com" 2 60).final (GuessSys.fresh 2) GuessSys.crowded).pending.length =
          3) ∧
      (GuessSys.machine "email:a@example.com" 2 60).Runs (GuessSys.fresh 2) GuessSys.guessed ∧
      some "b" ∈ ((GuessSys.machine "email:a@example.com" 2 60).final (GuessSys.fresh 2) GuessSys.guessed).failed ∧
      ¬ ((GuessSys.machine "email:a@example.com" 2 60).final (GuessSys.fresh 2) GuessSys.guessed).Counted
        "email:a@example.com" (some "b") := by
  refine ⟨⟨rfl, rfl, rfl, rfl, rfl⟩, ⟨?_, ?_⟩, ?_, ?_, ?_⟩
  · decide +kernel
  · decide +kernel
  · decide +kernel
  · decide +kernel
  · decide +kernel

end Dibs
