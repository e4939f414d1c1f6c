import Dibs.Lib.Machine
import Dibs.Redis.Effects

/-!
# Clients of the Redis store

A cancellation and an expiry are three round trips each: read the document, read the sidecar, run the
script. `Client` is where a call stands between two of them, and `redisMachine` interleaves the steps
of any number of calls with the creations, claims, permits, commits and releases of other clients,
each of which is one script.

Scripts guard their writes by the revision only. `advances_exec` is why that is enough once the sidecar
is read: no step lowers a revision, and while a revision stays, so does the document. `Client.Sound`
carries it to the calls in flight: a client whose expected revision is still the stored one has read
the sidecar of the document that is stored.
-/

namespace Dibs

open Function (update)

/-- Where a client's call of `cancel_if_active` or `expire_if_eligible` stands. -/
inductive Client
  /-- No call yet. -/
  | idle
  /-- `cancel_if_active` is about to read the document, with this many attempts left after it. -/
  | cancelStart (watchId : String) (attempts : ℕ)
  /-- It is about to read the sidecar. -/
  | cancelRead (watchId : String) (attempts : ℕ) (watch : Watch)
  /-- It is about to run its script, with the arguments of this moment. `current` is the document
  stored when the sidecar was read; no step looks at it. -/
  | cancelSend (watchId : String) (attempts : ℕ) (watch : Watch) (runtime : Option WatchRuntime)
      (moment : Time) (current : Option Watch)
  /-- `expire_if_eligible` is about to read the document. -/
  | expireStart (watchId : String) (expected : Option ℕ) (force : Bool)
  /-- It is about to read the sidecar. -/
  | expireRead (watchId : String) (expected : Option ℕ) (force : Bool) (watch : Watch)
  /-- It is about to run its script. -/
  | expireSend (watchId : String) (watch : Watch) (runtime : Option WatchRuntime)
      (request : ExpireRequest) (current : Option Watch)
  /-- The call has returned. -/
  | answered (result : TransitionResult)
deriving DecidableEq

/-- Whether no call is in flight. -/
def Client.isFree : Client → Bool
  | .idle | .answered _ => true
  | _ => false

/-- One run of a cancellation's or an expiry's script: the record just before and just after it, its
reply, and what the method answers, unless it reads again. -/
structure ScriptRun where
  watchId : String
  isCancel : Bool
  before : Option Watch × Option WatchRuntime
  reply : TransitionReply
  answer : Option TransitionResult
  after : Option Watch × Option WatchRuntime
deriving DecidableEq

/-- What one step of a client leaves. -/
structure Moved where
  client : Client
  db : Redis
  run : Option ScriptRun

/-- What the call has returned. -/
def Client.result : Client → Option TransitionResult
  | .answered result => some result
  | _ => none

/-- Where `cancel_if_active` goes after its script's reply: it returns, or reads again while attempts
are left. -/
def cancelNext (u : String) (attempts : ℕ) (watch : Watch) (runtime : Option WatchRuntime)
    (reply : TransitionReply) : Client :=
  match cancelAnswer watch runtime reply, attempts with
  | some answer, _ => .answered answer
  | none, 0 => .answered .fenced
  | none, attempts + 1 => .cancelStart u attempts

/-- The next round trip of a client. -/
def Client.step (retention : Duration) (now : Time) (db : Redis) : Client → Moved
  | .idle => ⟨.idle, db, none⟩
  | .answered result => ⟨.answered result, db, none⟩
  | .cancelStart u attempts =>
    match db.get u with
    | none => ⟨.answered .unknown, db, none⟩
    | some watch =>
      if watch.status.isTerminal then ⟨.answered (.noop watch), db, none⟩
      else ⟨.cancelRead u attempts watch, db, none⟩
  | .cancelRead u attempts watch =>
    ⟨.cancelSend u attempts watch (db.getRuntime u) now (db.record u).1, db, none⟩
  | .cancelSend u attempts watch runtime moment _ =>
    let out := db.cancelScript u (casRevision runtime) (cancelMode retention moment watch runtime)
    let next := cancelNext u attempts watch runtime out.1
    ⟨next, out.2, some ⟨u, true, db.record u, out.1, next.result, out.2.record u⟩⟩
  | .expireStart u expected force =>
    match db.get u with
    | none => ⟨.answered .unknown, db, none⟩
    | some watch =>
      if watch.status.isTerminal then ⟨.answered (.noop watch), db, none⟩
      else ⟨.expireRead u expected force watch, db, none⟩
  | .expireRead u expected force watch =>
    match expireRequest retention now u expected force watch (db.getRuntime u) with
    | .inl answer => ⟨.answered answer, db, none⟩
    | .inr request => ⟨.expireSend u watch (db.getRuntime u) request (db.record u).1, db, none⟩
  | .expireSend u _ runtime request _ =>
    let out := db.expireScript u (casRevision runtime) request.newWatch request.newRuntime
      request.eventId request.terminalDeleteMs request.retentionTtlMs
    let answer := expireAnswer request out.1
    ⟨.answered answer, out.2, some ⟨u, false, db.record u, out.1, some answer, out.2.record u⟩⟩

/-- The store and its clients. -/
structure RedisSys where
  now : Time
  retention : Duration
  db : Redis
  clients : ℕ → Client
  /-- The claims handed out so far. -/
  issued : List WindowClaim
  /-- The script runs of cancellations and expiries so far, newest first. -/
  runs : List ScriptRun

/-- What can happen next. -/
inductive RedisLabel
  | tick (d : Duration)
  | create (watch : Watch) (runtime : WatchRuntime)
  | claim (watchId windowId ownerId : String) (lease : Duration) (ignoreSchedule : Bool)
  | begin (claim : WindowClaim)
  | commit (claim : WindowClaim) (newWatch : Watch) (newRuntime : WatchRuntime)
  | release (claim : WindowClaim)
  | cancel (k : ℕ) (watchId : String)
  | expire (k : ℕ) (watchId : String) (expected : Option ℕ) (force : Bool)
  | step (k : ℕ)

/-- The claim of a successful `claim_window`. -/
def ClaimResult.claim : ClaimResult → Option WindowClaim
  | .owned c => some c
  | _ => none

/-- The machine: one script, one read, or one tick of the clock at a time. Only claims that were handed
out are presented, and a client makes one call at a time. -/
def redisMachine : Machine RedisSys RedisLabel where
  init s := 0 ≤ s.retention ∧ s.db = .empty ∧ (∀ k, s.clients k = .idle) ∧ s.issued = [] ∧ s.runs = []
  allowed s
    | .tick d => 0 ≤ d
    | .create _ _ | .claim _ _ _ _ _ => True
    | .begin c | .commit c _ _ | .release c => c ∈ s.issued
    | .cancel k _ | .expire k _ _ _ => (s.clients k).isFree = true
    | .step k => (s.clients k).isFree = false
  exec
    | .tick d, s => { s with now := s.now + d }
    | .create w r, s => { s with db := (s.db.create w r).2 }
    | .claim u w o lease ignoreSchedule, s =>
      let out := s.db.claimWindow s.now u w o lease ignoreSchedule
      { s with db := out.2, issued := (out.1.bind ClaimResult.claim).toList ++ s.issued }
    | .begin c, s => { s with db := (s.db.beginBooking s.now c).2 }
    | .commit c nw nr, s => { s with db := (s.db.commitWindow s.retention s.now c nw nr).2 }
    | .release c, s => { s with db := (s.db.releaseClaim c).2 }
    | .cancel k u, s => { s with clients := update s.clients k (.cancelStart u (Redis.cancelAttempts - 1)) }
    | .expire k u expected force, s => { s with clients := update s.clients k (.expireStart u expected force) }
    | .step k, s =>
      let moved := (s.clients k).step s.retention s.now s.db
      { s with
        db := moved.db
        clients := update s.clients k moved.client
        runs := moved.run.toList ++ s.runs }

instance (s : RedisSys) : (label : RedisLabel) → Decidable (redisMachine.allowed s label)
  | .tick d => inferInstanceAs (Decidable (0 ≤ d))
  | .create _ _ | .claim _ _ _ _ _ => inferInstanceAs (Decidable True)
  | .begin c | .commit c _ _ | .release c => inferInstanceAs (Decidable (c ∈ s.issued))
  | .cancel k _ | .expire k _ _ _ => inferInstanceAs (Decidable ((s.clients k).isFree = true))
  | .step k => inferInstanceAs (Decidable ((s.clients k).isFree = false))

/-! ## Revisions only grow -/

/-- A stored record may become another one: it stays a record, its revision does not fall, and its
document stays while the revision does. -/
def Advances (x x' : Option Watch × Option WatchRuntime) : Prop :=
  ∀ w r, x = (some w, some r) →
    ∃ w' r', x' = (some w', some r') ∧ r.revision ≤ r'.revision ∧ (r'.revision = r.revision → w' = w)

theorem Advances.refl (x : Option Watch × Option WatchRuntime) : Advances x x :=
  fun w r h => ⟨w, r, h, le_refl _, fun _ => rfl⟩

/-- Replacing one record by one that may follow it. -/
theorem Advances.of_update {f f' : String → Option Watch × Option WatchRuntime} {u : String}
    {x : Option Watch × Option WatchRuntime} (hf : f' = update f u x) (hu : Advances (f u) x)
    (v : String) : Advances (f v) (f' v) := by
  subst hf
  by_cases h : v = u
  · subst h
    rwa [Function.update_self]
  · rw [Function.update_of_ne h]
    exact .refl _

/-- A record that may follow a record with a sidecar. -/
theorem Advances.of_record {x : Option Watch × Option WatchRuntime} {w w' : Watch}
    {r r' : WatchRuntime} (hx : x = (some w, some r)) (hle : r.revision ≤ r'.revision)
    (heq : r'.revision = r.revision → w' = w) : Advances x (some w', some r') := by
  intro w₀ r₀ h₀
  obtain ⟨rfl, rfl⟩ : w = w₀ ∧ r = r₀ := by simpa [hx] using h₀
  exact ⟨w', r', rfl, hle, heq⟩

/-- What a client knows that has read a sidecar: the document has one, its revision is not above the
stored one, and while the two agree the stored document is the one of the read. -/
def Reads (x : Option Watch × Option WatchRuntime) (runtime : Option WatchRuntime)
    (current : Option Watch) : Prop :=
  ∃ r w' r', runtime = some r ∧ x = (some w', some r') ∧ r.revision ≤ r'.revision ∧
    (r'.revision = r.revision → current = some w')

theorem Reads.advance {x x' : Option Watch × Option WatchRuntime} {runtime : Option WatchRuntime}
    {current : Option Watch} (h : Reads x runtime current) (ha : Advances x x') :
    Reads x' runtime current := by
  obtain ⟨r, w, r₁, hr, hx, hle, heq⟩ := h
  obtain ⟨w', r', hx', hle', heq'⟩ := ha w r₁ hx
  refine ⟨r, w', r', hr, hx', le_trans hle hle', fun h => ?_⟩
  have h₁ : r₁.revision = r.revision := le_antisymm (h ▸ hle') hle
  rw [heq' (h.trans h₁.symm)]
  exact heq h₁

/-- What holds of a client's call: the document it read is still there, and what it knows of the
sidecar. -/
def Client.Sound (retention : Duration) (db : Redis) : Client → Prop
  | .idle | .answered _ | .cancelStart _ _ | .expireStart _ _ _ => True
  | .cancelRead u _ _ | .expireRead u _ _ _ => (db.record u).1 ≠ none
  | .cancelSend u _ _ runtime _ current => Reads (db.record u) runtime current
  | .expireSend u watch runtime request current =>
    Reads (db.record u) runtime current ∧ ∃ moment expected force,
      expireRequest retention moment u expected force watch runtime = .inr request

/-- Every document has a sidecar. -/
def Redis.Whole (db : Redis) : Prop :=
  ∀ u w, (db.record u).1 = some w → ∃ r, db.record u = (some w, some r)

theorem Redis.Whole.update {db db' : Redis} (h : db.Whole) {u : String} {w : Watch} {r : WatchRuntime}
    (hd : db'.record = update db.record u (some w, some r)) : db'.Whole := by
  intro v w' hw
  rw [hd] at hw ⊢
  by_cases hv : v = u
  · subst hv
    rw [Function.update_self] at hw ⊢
    exact ⟨r, by simpa using hw⟩
  · rw [Function.update_of_ne hv] at hw ⊢
    exact h v w' hw

/-- Sound calls stay sound while the records advance. -/
theorem Client.Sound.advance {retention : Duration} {db db' : Redis} {client : Client}
    (h : client.Sound retention db) (hwhole : db.Whole)
    (ha : ∀ u, Advances (db.record u) (db'.record u)) : client.Sound retention db' := by
  have hstays : ∀ u, (db.record u).1 ≠ none → (db'.record u).1 ≠ none := by
    intro u hne
    obtain ⟨w, hw⟩ := Option.ne_none_iff_exists'.mp hne
    obtain ⟨r, hr⟩ := hwhole u w hw
    obtain ⟨w', r', hx, -⟩ := ha u w r hr
    simp [hx]
  cases client with
  | idle => trivial
  | answered => trivial
  | cancelStart => trivial
  | expireStart => trivial
  | cancelRead => exact hstays _ h
  | expireRead => exact hstays _ h
  | cancelSend => exact Reads.advance h (ha _)
  | expireSend => exact ⟨Reads.advance h.1 (ha _), h.2⟩

/-! ## What a call's script does -/

/-- `cancel_if_active` records the intent when the sidecar it read has a booking in flight. -/
theorem cancelMode_booking {r : WatchRuntime} (h : r.phase = some .booking) (retention : Duration)
    (moment : Time) (w : Watch) :
    cancelMode retention moment w (some r) = .pending { r with cancelRequested := true } := by
  simp [cancelMode, Option.filter, h]

/-- Otherwise it asks for the terminal document. -/
theorem cancelMode_other {r : WatchRuntime} (h : r.phase ≠ some .booking) (retention : Duration)
    (moment : Time) (w : Watch) :
    cancelMode retention moment w (some r) = .cancel (w.ended .cancelled moment)
      (some (r.finished (moment + retention))) (terminalDeadlines retention moment).1
      (terminalDeadlines retention moment).2 := by
  simp [cancelMode, Option.filter, h]

/-- The script of a cancellation, on an active watch whose stored revision is the one read: it records
the intent or stores the terminal record, as the sidecar that was read says. -/
theorem cancelScript_runs {db : Redis} {retention : Duration} (hret : 0 ≤ retention) {u : String}
    {w' : Watch} {r r' : WatchRuntime} (hrec : db.record u = (some w', some r'))
    (hactive : w'.status = .active) (hno : db.overtaken u (casRevision (some r)) = false)
    (w : Watch) (moment : Time) :
    (r.phase = some .booking ∧
      (db.cancelScript u (casRevision (some r)) (cancelMode retention moment w (some r))).1 =
        .notEligible w' ∧
      (db.cancelScript u (casRevision (some r)) (cancelMode retention moment w (some r))).2.record =
        update db.record u (some w', some { r with cancelRequested := true })) ∨
    (r.phase ≠ some .booking ∧
      (db.cancelScript u (casRevision (some r)) (cancelMode retention moment w (some r))).1 =
        .applied (w.ended .cancelled moment) ∧
      (db.cancelScript u (casRevision (some r)) (cancelMode retention moment w (some r))).2.record =
        update db.record u (some (w.ended .cancelled moment), some (r.finished (moment + retention)))) := by
  rcases db.cancelScript_cases u (casRevision (some r)) (cancelMode retention moment w (some r)) with
    ⟨h, -⟩ | ⟨w₁, h, hne, -⟩ | ⟨-, -, -, h, -⟩ | ⟨w₁, h, -, -, hmode⟩
  · simp [hrec] at h
  · obtain rfl : w' = w₁ := by simpa [hrec] using h
    exact absurd hactive hne
  · simp [hno] at h
  · obtain rfl : w' = w₁ := by simpa [hrec] using h
    by_cases hp : r.phase = some .booking
    · rw [cancelMode_booking hp] at hmode ⊢
      obtain ⟨r₁, he, hreply, hafter⟩ | ⟨nw, nr, ms, ttl, he, -⟩ := hmode
      · obtain rfl := CancelMode.pending.inj he
        exact .inl ⟨hp, hreply, by rw [hafter, hrec]; rfl⟩
      · cases he
    · rw [cancelMode_other hp] at hmode ⊢
      obtain ⟨r₁, he, -⟩ | ⟨nw, nr, ms, ttl, he, hreply, hafter⟩ := hmode
      · cases he
      · obtain ⟨rfl, rfl, rfl, rfl⟩ := CancelMode.cancel.inj he
        refine .inr ⟨hp, hreply, ?_⟩
        rw [hafter (Redis.terminalDeadlines_pos hret moment), hrec]
        rfl

/-- Where it is stopped, it changes nothing. -/
theorem cancelScript_stopped {db : Redis} {u cas : String} {w' : Watch}
    (hw : (db.record u).1 = some w') (h : w'.status ≠ .active ∨ db.overtaken u cas = true)
    (mode : CancelMode) :
    ((w'.status ≠ .active ∧ (db.cancelScript u cas mode).1 = .noop w') ∨
      (w'.status = .active ∧ (db.cancelScript u cas mode).1 = .fenced)) ∧
      (db.cancelScript u cas mode).2 = db := by
  rcases db.cancelScript_cases u cas mode with
    ⟨h₁, -⟩ | ⟨w₁, h₁, hne, he⟩ | ⟨w₁, h₁, ha, -, he⟩ | ⟨w₁, h₁, ha, hno, -⟩
  · simp [hw] at h₁
  · obtain rfl : w' = w₁ := by simpa [hw] using h₁
    exact ⟨.inl ⟨hne, by rw [he]⟩, by rw [he]⟩
  · obtain rfl : w' = w₁ := by simpa [hw] using h₁
    exact ⟨.inr ⟨ha, by rw [he]⟩, by rw [he]⟩
  · obtain rfl : w' = w₁ := by simpa [hw] using h₁
    rcases h with h | h
    · exact absurd ha h
    · simp [hno] at h

/-- What an expiry asks its script for. -/
theorem expireRequest_inr {retention : Duration} {moment : Time} {u : String} {expected : Option ℕ}
    {force : Bool} {w : Watch} {runtime : Option WatchRuntime} {request : ExpireRequest}
    (h : expireRequest retention moment u expected force w runtime = .inr request) :
    request.newWatch = w.ended .expired moment ∧
      request.newRuntime = runtime.map (·.finished (moment + retention)) ∧
      request.retentionTtlMs = (terminalDeadlines retention moment).2 := by
  unfold expireRequest at h
  split at h
  · cases h
  · split at h
    · cases h
    · obtain rfl := Sum.inr.inj h
      exact ⟨rfl, rfl, rfl⟩

/-- The script of an expiry: it stores the terminal record of the document that was read, at the
stored revision, or changes nothing. -/
theorem expireScript_runs {db : Redis} {retention : Duration} (hret : 0 ≤ retention) {u : String}
    {w w' : Watch} {r r' : WatchRuntime} (hrec : db.record u = (some w', some r')) {moment : Time}
    {expected : Option ℕ} {force : Bool} {request : ExpireRequest}
    (hreq : expireRequest retention moment u expected force w (some r) = .inr request) :
    (w'.status = .active ∧ db.overtaken u (casRevision (some r)) = false ∧
      (db.expireScript u (casRevision (some r)) request.newWatch request.newRuntime request.eventId
        request.terminalDeleteMs request.retentionTtlMs).1 = .applied (w.ended .expired moment) ∧
      (db.expireScript u (casRevision (some r)) request.newWatch request.newRuntime request.eventId
        request.terminalDeleteMs request.retentionTtlMs).2.record =
        update db.record u (some (w.ended .expired moment), some (r.finished (moment + retention)))) ∨
    ((∀ nw, (db.expireScript u (casRevision (some r)) request.newWatch request.newRuntime
        request.eventId request.terminalDeleteMs request.retentionTtlMs).1 ≠ .applied nw) ∧
      (db.expireScript u (casRevision (some r)) request.newWatch request.newRuntime request.eventId
        request.terminalDeleteMs request.retentionTtlMs).2 = db) := by
  obtain ⟨hnw, hnr, httl⟩ := expireRequest_inr hreq
  rcases db.expireScript_cases u (casRevision (some r)) request.newWatch request.newRuntime
    request.eventId request.terminalDeleteMs request.retentionTtlMs with
    ⟨w₁, hw₁, hactive, hno, hreply, hafter⟩ | hsame
  · obtain rfl : w' = w₁ := by simpa [hrec] using hw₁
    refine .inl ⟨hactive, hno, by rw [hreply, hnw], ?_⟩
    rw [hafter (httl ▸ Redis.terminalDeadlines_pos hret moment), hrec, hnw, hnr]
    rfl
  · exact .inr hsame

/-- After its script a cancellation has returned or starts over. -/
theorem cancelNext_sound (retention : Duration) (db : Redis) (u : String) (attempts : ℕ) (w : Watch)
    (r : Option WatchRuntime) (reply : TransitionReply) :
    (cancelNext u attempts w r reply).Sound retention db := by
  unfold cancelNext
  split <;> trivial

/-- A document that `get` returns is stored. -/
theorem Redis.record_of_get {db : Redis} {u : String} {w : Watch} (h : db.get u = some w) :
    (db.record u).1 = some w := (Option.filter_eq_some_iff.mp h).1

/-- A step of a sound call advances the records, keeps documents whole, and leaves the call sound. -/
theorem Client.Sound.step {retention : Duration} (hret : 0 ≤ retention) {db : Redis} (hwhole : db.Whole)
    {client : Client} (h : client.Sound retention db) (now : Time) :
    (∀ u, Advances (db.record u) ((client.step retention now db).db.record u)) ∧
      (client.step retention now db).db.Whole ∧
      (client.step retention now db).client.Sound retention (client.step retention now db).db := by
  have hstay : ∀ u, Advances (db.record u) (db.record u) := fun u => .refl _
  have hread : ∀ u, (db.record u).1 ≠ none → Reads (db.record u) (db.getRuntime u) (db.record u).1 := by
    intro u hne
    obtain ⟨w, hw⟩ := Option.ne_none_iff_exists'.mp hne
    obtain ⟨r, hr⟩ := hwhole u w hw
    have hget : db.getRuntime u = some r := congrArg Prod.snd hr
    exact ⟨r, w, r, hget, hr, le_refl _, fun _ => hw⟩
  cases client with
  | idle => exact ⟨hstay, hwhole, trivial⟩
  | answered => exact ⟨hstay, hwhole, trivial⟩
  | cancelStart u attempts =>
    simp only [Client.step]
    split
    next => exact ⟨hstay, hwhole, trivial⟩
    next w hw =>
      split
      next => exact ⟨hstay, hwhole, trivial⟩
      next => exact ⟨hstay, hwhole, by simp [Sound, Redis.record_of_get hw]⟩
  | cancelRead u attempts w => exact ⟨hstay, hwhole, hread u h⟩
  | cancelSend u attempts w runtime moment current =>
    obtain ⟨r, w', r', rfl, hrec, hle, heq⟩ := h
    have hw : (db.record u).1 = some w' := by rw [hrec]
    simp only [Client.step]
    by_cases hstop : w'.status ≠ .active ∨ db.overtaken u (casRevision (some r)) = true
    · rw [(cancelScript_stopped hw hstop _).2]
      exact ⟨hstay, hwhole, cancelNext_sound ..⟩
    · rw [not_or, not_not, Bool.not_eq_true] at hstop
      have hrev := Redis.revision_eq_of_not_overtaken (congrArg Prod.snd hrec) hstop.2
      refine ⟨?_, ?_, cancelNext_sound ..⟩
      · rcases cancelScript_runs hret hrec hstop.1 hstop.2 w moment with ⟨-, -, hafter⟩ | ⟨-, -, hafter⟩
        · exact .of_update hafter (.of_record hrec (le_of_eq hrev) fun _ => rfl)
        · refine .of_update hafter (.of_record hrec (by simp [WatchRuntime.finished, hrev]) fun h => ?_)
          simp [WatchRuntime.finished, hrev] at h
      · rcases cancelScript_runs hret hrec hstop.1 hstop.2 w moment with ⟨-, -, hafter⟩ | ⟨-, -, hafter⟩
        · exact hwhole.update hafter
        · exact hwhole.update hafter
  | expireStart u expected force =>
    simp only [Client.step]
    split
    next => exact ⟨hstay, hwhole, trivial⟩
    next w hw =>
      split
      next => exact ⟨hstay, hwhole, trivial⟩
      next => exact ⟨hstay, hwhole, by simp [Sound, Redis.record_of_get hw]⟩
  | expireRead u expected force w =>
    simp only [Client.step]
    split
    next => exact ⟨hstay, hwhole, trivial⟩
    next request hreq => exact ⟨hstay, hwhole, hread u h, now, expected, force, hreq⟩
  | expireSend u w runtime request current =>
    obtain ⟨⟨r, w', r', rfl, hrec, hle, heq⟩, moment, expected, force, hreq⟩ := h
    simp only [Client.step]
    rcases expireScript_runs hret hrec hreq with ⟨-, hno, -, hdb⟩ | ⟨-, hsame⟩
    · have hrev := Redis.revision_eq_of_not_overtaken (congrArg Prod.snd hrec) hno
      refine ⟨.of_update hdb (.of_record hrec ?_ fun h => ?_), hwhole.update hdb, trivial⟩
      · simp [WatchRuntime.finished, hrev]
      · simp [WatchRuntime.finished, hrev] at h
    · rw [hsame]
      exact ⟨hstay, hwhole, trivial⟩

namespace RedisSys

/-- The invariant: every document has a sidecar, and the calls in flight are sound. -/
structure Inv (s : RedisSys) : Prop where
  retention_nonneg : 0 ≤ s.retention
  whole : s.db.Whole
  sound : ∀ k, (s.clients k).Sound s.retention s.db

/-- A step that only advances the records keeps the invariant. -/
theorem Inv.of_advances {s : RedisSys} (h : s.Inv) {s' : RedisSys} (hret : s'.retention = s.retention)
    (hclients : s'.clients = s.clients) (hwhole : s'.db.Whole)
    (ha : ∀ u, Advances (s.db.record u) (s'.db.record u)) : s'.Inv where
  retention_nonneg := hret ▸ h.retention_nonneg
  whole := hwhole
  sound k := by
    rw [hret, hclients]
    exact (h.sound k).advance h.whole ha

/-- A step that leaves the records alone keeps the invariant. -/
theorem Inv.of_record {s : RedisSys} (h : s.Inv) {s' : RedisSys} (hret : s'.retention = s.retention)
    (hclients : s'.clients = s.clients) (hrec : s'.db.record = s.db.record) : s'.Inv := by
  refine h.of_advances hret hclients (fun u w hw => ?_) fun u => ?_
  · rw [hrec] at hw ⊢
    exact h.whole u w hw
  · rw [hrec]
    exact .refl _

/-- A new call of one client keeps the invariant. -/
theorem Inv.of_client {s : RedisSys} (h : s.Inv) (k : ℕ) {client : Client}
    (hc : client.Sound s.retention s.db) : Inv { s with clients := update s.clients k client } where
  retention_nonneg := h.retention_nonneg
  whole := h.whole
  sound j := by
    by_cases hj : j = k
    · subst hj
      simpa using hc
    · simpa [Function.update_of_ne hj] using h.sound j

/-- Every step keeps the invariant, and no step lowers a revision or changes a document at one. -/
theorem Inv.exec {s : RedisSys} (h : s.Inv) (label : RedisLabel) :
    (redisMachine.exec label s).Inv ∧
      ∀ u, Advances (s.db.record u) ((redisMachine.exec label s).db.record u) := by
  have hstay : ∀ u, Advances (s.db.record u) (s.db.record u) := fun u => .refl _
  cases label with
  | tick d => exact ⟨h.of_record rfl rfl rfl, hstay⟩
  | create w r =>
    rcases s.db.create_cases w r with ⟨hnone, hd⟩ | hd
    · have ha : ∀ u, Advances (s.db.record u) ((s.db.create w r).2.record u) :=
        .of_update hd fun w₀ r₀ h₀ => by simp [h₀] at hnone
      exact ⟨h.of_advances rfl rfl (h.whole.update hd) ha, ha⟩
    · exact ⟨h.of_record rfl rfl (congrArg Redis.record hd), fun u => by
        change Advances _ ((s.db.create w r).2.record u)
        rw [hd]
        exact .refl _⟩
  | claim u w o lease ignoreSchedule =>
    have hd := s.db.record_claimWindow s.now u w o lease ignoreSchedule
    refine ⟨h.of_record rfl rfl hd, fun v => ?_⟩
    change Advances _ ((s.db.claimWindow s.now u w o lease ignoreSchedule).2.record v)
    rw [hd]
    exact .refl _
  | begin c =>
    rcases s.db.beginBooking_cases s.now c with ⟨w, r, hrec, -, hrev, -, hd⟩ | hd
    · have ha : ∀ u, Advances (s.db.record u) ((s.db.beginBooking s.now c).2.record u) :=
        .of_update hd (.of_record hrec (le_of_eq hrev) fun _ => rfl)
      exact ⟨h.of_advances rfl rfl (h.whole.update hd) ha, ha⟩
    · refine ⟨h.of_record rfl rfl (congrArg Redis.record hd), fun u => ?_⟩
      change Advances _ ((s.db.beginBooking s.now c).2.record u)
      rw [hd]
      exact .refl _
  | commit c nw nr =>
    rcases s.db.commitWindow_cases h.retention_nonneg s.now c nw nr with ⟨w, r, hrec, -, hrev, -, hd⟩ | hd
    · have ha : ∀ u, Advances (s.db.record u)
          ((s.db.commitWindow s.retention s.now c nw nr).2.record u) := by
        refine .of_update hd (.of_record hrec (by simp [storedRuntime, hrev]) fun h => ?_)
        simp [storedRuntime, hrev] at h
      exact ⟨h.of_advances rfl rfl (h.whole.update hd) ha, ha⟩
    · refine ⟨h.of_record rfl rfl (congrArg Redis.record hd), fun u => ?_⟩
      change Advances _ ((s.db.commitWindow s.retention s.now c nw nr).2.record u)
      rw [hd]
      exact .refl _
  | release c =>
    have hd := s.db.record_releaseClaim c
    refine ⟨h.of_record rfl rfl hd, fun v => ?_⟩
    change Advances _ ((s.db.releaseClaim c).2.record v)
    rw [hd]
    exact .refl _
  | cancel k u => exact ⟨h.of_client k trivial, hstay⟩
  | expire k u expected force => exact ⟨h.of_client k trivial, hstay⟩
  | step k =>
    obtain ⟨ha, hwhole, hsound⟩ := (h.sound k).step h.retention_nonneg h.whole s.now
    refine ⟨⟨h.retention_nonneg, hwhole, fun j => ?_⟩, ha⟩
    by_cases hj : j = k
    · subst hj
      change (update s.clients j _ j).Sound s.retention _
      rwa [Function.update_self]
    · change (update s.clients k _ j).Sound s.retention _
      rw [Function.update_of_ne hj]
      exact (h.sound j).advance h.whole ha

/-- The invariant holds in every reachable state. -/
theorem inv {s : RedisSys} (h : redisMachine.Reach s) : s.Inv := by
  refine h.invariant (fun s hi => ?_) fun s label _ hinv _ => (hinv.exec label).1
  obtain ⟨hret, hdb, hclients, -, -⟩ := hi
  refine ⟨hret, fun u w hw => ?_, fun k => ?_⟩
  · simp [hdb, Redis.record, Redis.empty] at hw
  · rw [hclients]
    trivial

end RedisSys

end Dibs
