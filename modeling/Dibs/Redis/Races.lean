import Dibs.Redis.Clients

/-!
# Races of cancellations and expiries on Redis

Two things that the in-memory store decides in one critical section are spread over round trips on
Redis. A cancellation looks at the booking phase of the sidecar it read, and begin_booking, which sets
the phase, keeps the revision: a permit granted between the read and the script passes the compare.
And a cancellation or an expiry stores a terminal document made from the document it read first, while
the compare starts from the sidecar it read next: a commit between the two reads is passed over.

`cancellations_defer_iff` and `updates_kept_iff` say that these are the only ways in which a run goes
wrong: all cancellations of a run respect bookings in flight, and all its terminal documents keep what
was committed, if and only if no step of it is one of these.
-/

namespace Dibs

/-- Two documents differ at most in status, `next_check_at` and `updated_at`. -/
def Watch.SameBut (w w' : Watch) : Prop :=
  { w with status := w'.status, nextCheckAt := w'.nextCheckAt, updatedAt := w'.updatedAt } = w'

/-- Ending a document changes no other field. -/
theorem Watch.sameBut_ended (w w' : Watch) (status : WatchStatus) (now : Time) :
    w.SameBut (w'.ended status now) ↔ w.SameBut w' := by
  unfold SameBut ended
  simp only [Watch.ext_iff]

/-- A cancellation's script that ran while a booking was in flight: if the method answers, it answers
`NOT_ELIGIBLE`, with the request recorded. -/
def ScriptRun.Defers (t : ScriptRun) : Prop :=
  t.isCancel = true → ∀ w r, t.before = (some w, some r) → w.status = .active →
    r.phase = some .booking → t.answer ≠ none →
    (∃ w', t.answer = some (.notEligible w')) ∧
      ∃ w' r', t.after = (some w', some r') ∧ r'.cancelRequested = true

/-- A script that applied: it kept the stored document but for status, `next_check_at` and
`updated_at`, and raised the stored revision by one. -/
def ScriptRun.Keeps (t : ScriptRun) : Prop :=
  ∀ nw, t.reply = .applied nw → ∃ w r w' r', t.before = (some w, some r) ∧
    t.after = (some w', some r') ∧ w.SameBut w' ∧ r'.revision = r.revision + 1

/-- The terminal document that a client is about to store is made from this document; the sidecar that
was read with it, and the document that was stored then. -/
def Client.ending : Client → Option (String × Watch × Option WatchRuntime × Option Watch)
  | .cancelSend u _ w runtime _ current =>
    if runtime.any fun r => r.phase = some .booking then none else some (u, w, runtime, current)
  | .expireSend u w runtime _ current => some (u, w, runtime, current)
  | _ => none

namespace RedisSys

/-- The cancellations so far have respected every booking in flight. -/
def Defers (s : RedisSys) : Prop := ∀ t ∈ s.runs, t.Defers

/-- The terminal documents stored so far have kept what was stored. -/
def Keeps (s : RedisSys) : Prop := ∀ t ∈ s.runs, t.Keeps

/-- A cancellation's script runs on an active watch with a booking in flight. Either the compare
passes although the sidecar that was read had no booking in flight, so that the permit was granted
since; or the compare fails and this was the last attempt. -/
def Overrides (s : RedisSys) (label : RedisLabel) : Prop :=
  ∃ k u attempts w expected moment current stored r,
    label = .step k ∧ s.clients k = .cancelSend u attempts w (some expected) moment current ∧
    s.db.record u = (some stored, some r) ∧ stored.status = .active ∧ r.phase = some .booking ∧
    ((s.db.overtaken u (casRevision (some expected)) = false ∧ expected.phase ≠ some .booking) ∨
      (s.db.overtaken u (casRevision (some expected)) = true ∧ attempts = 0))

/-- A terminal script applies whose document was read before a commit and whose sidecar was read after
it: the document stored when the sidecar was read was already another one. -/
def Discards (s : RedisSys) (label : RedisLabel) : Prop :=
  ∃ k u w runtime current stored, label = .step k ∧
    (s.clients k).ending = some (u, w, runtime, some current) ∧ (s.db.record u).1 = some stored ∧
    stored.status = .active ∧ s.db.overtaken u (casRevision runtime) = false ∧ ¬ current.SameBut w

/-- The script runs after a step: those before it, and at most the one of the client that moved. -/
theorem mem_runs_exec {s : RedisSys} {label : RedisLabel} {t : ScriptRun}
    (h : t ∈ (redisMachine.exec label s).runs) :
    t ∈ s.runs ∨ ∃ k, label = .step k ∧
      ((s.clients k).step s.retention s.now s.db).run = some t := by
  cases label with
  | step k =>
    rcases List.mem_append.mp h with h | h
    · exact .inr ⟨k, rfl, by simpa using h⟩
    · exact .inl h
  | _ => exact .inl h

/-- The script run of a client that moves is recorded. -/
theorem run_mem_exec {s : RedisSys} {k : ℕ} {t : ScriptRun}
    (h : ((s.clients k).step s.retention s.now s.db).run = some t) :
    t ∈ (redisMachine.exec (.step k) s).runs :=
  List.mem_append_left _ (by simp [h])

/-- Only a client that is about to run a script leaves a script run. -/
theorem run_cases {client : Client} {retention : Duration} {now : Time} {db : Redis} {t : ScriptRun}
    (h : (client.step retention now db).run = some t) :
    (∃ u attempts w runtime moment current,
      client = .cancelSend u attempts w runtime moment current) ∨
    (∃ u w runtime request current, client = .expireSend u w runtime request current) := by
  cases client with
  | cancelSend u attempts w runtime moment current => exact .inl ⟨_, _, _, _, _, _, rfl⟩
  | expireSend u w runtime request current => exact .inr ⟨_, _, _, _, _, rfl⟩
  | idle => simp [Client.step] at h
  | answered => simp [Client.step] at h
  | cancelRead => simp [Client.step] at h
  | cancelStart =>
    simp only [Client.step] at h
    split at h
    · simp at h
    · split at h <;> simp at h
  | expireStart =>
    simp only [Client.step] at h
    split at h
    · simp at h
    · split at h <;> simp at h
  | expireRead =>
    simp only [Client.step] at h
    split at h <;> simp at h

/-! ## Bookings in flight -/

/-- A cancellation's script that does not override a booking defers to it. -/
theorem defers_of_not_overrides {s : RedisSys} (hs : s.Inv) {k : ℕ} (hno : ¬ s.Overrides (.step k))
    {t : ScriptRun} (ht : ((s.clients k).step s.retention s.now s.db).run = some t) : t.Defers := by
  have hsound := hs.sound k
  rcases run_cases ht with ⟨u, attempts, w, runtime, moment, current, hc⟩ |
    ⟨u, w, runtime, request, current, hc⟩
  · rw [hc] at hsound ht
    obtain ⟨expected, stored, r, rfl, hrec, -, -⟩ := hsound
    simp only [Client.step, Option.some.injEq] at ht
    subst ht
    intro _ w₁ r₁ hbefore hactive hphase hanswer
    obtain ⟨rfl, rfl⟩ : stored = w₁ ∧ r = r₁ := by
      simpa using hrec.symm.trans hbefore
    cases hover : s.db.overtaken u (casRevision (some expected)) with
    | false =>
      rcases cancelScript_runs hs.retention_nonneg hrec hactive hover w moment with
        ⟨hp, hreply, hafter⟩ | ⟨hp, -, -⟩
      · -- The sidecar that was read had the booking in flight, so the intent is recorded.
        refine ⟨⟨w, ?_⟩, stored, { expected with cancelRequested := true }, ?_, rfl⟩
        · simp only [hreply]
          rfl
        · simp only [hafter, Function.update_self]
      · exact absurd ⟨k, u, attempts, w, expected, moment, current, stored, r, rfl, hc, hrec, hactive,
          hphase, .inl ⟨hover, hp⟩⟩ hno
    | true =>
      -- A fenced script answers only after the last attempt.
      have hattempts : attempts ≠ 0 := fun h => hno ⟨k, u, attempts, w, expected, moment, current,
        stored, r, rfl, hc, hrec, hactive, hphase, .inr ⟨hover, h⟩⟩
      obtain ⟨n, rfl⟩ := Nat.exists_eq_succ_of_ne_zero hattempts
      obtain ⟨hreply, -⟩ := cancelScript_stopped (congrArg Prod.fst hrec) (.inr hover)
        (cancelMode s.retention moment w (some expected))
      rcases hreply with ⟨hne, -⟩ | ⟨-, hreply⟩
      · exact absurd hactive hne
      · simp [hreply, cancelNext, cancelAnswer, Client.result] at hanswer
  · rw [hc] at ht
    simp only [Client.step, Option.some.injEq] at ht
    subst ht
    intro hcancel
    simp at hcancel

/-- A script that overrides a booking does not defer to it. -/
theorem not_defers_of_overrides {s : RedisSys} (hs : s.Inv) {label : RedisLabel}
    (h : s.Overrides label) : ¬ (redisMachine.exec label s).Defers := by
  obtain ⟨k, u, attempts, w, expected, moment, current, stored, r, rfl, hc, hrec, hactive, hphase,
    hcase⟩ := h
  intro hdefers
  have hdefer := hdefers _ (run_mem_exec (k := k) (by rw [hc]; rfl)) rfl stored r hrec hactive hphase
  rcases hcase with ⟨hover, hp⟩ | ⟨hover, rfl⟩
  · rcases cancelScript_runs hs.retention_nonneg hrec hactive hover w moment with
      ⟨hp', -⟩ | ⟨-, hreply, -⟩
    · exact hp hp'
    · simp [hreply, cancelNext, cancelAnswer, Client.result] at hdefer
  · obtain ⟨hreply, -⟩ := cancelScript_stopped (congrArg Prod.fst hrec) (.inr hover)
      (cancelMode s.retention moment w (some expected))
    rcases hreply with ⟨hne, -⟩ | ⟨-, hreply⟩
    · exact absurd hactive hne
    · simp [hreply, cancelNext, cancelAnswer, Client.result] at hdefer

/-- Cancellations respect bookings in flight exactly as long as none overrides one. -/
theorem defers_exactlyWhen : redisMachine.ExactlyWhen Defers fun s label => ¬ s.Overrides label where
  holds s hs := by
    refine hs.invariant (fun s hi => ?_) fun s label hr h ha t ht => ?_
    · obtain ⟨-, -, -, -, hruns⟩ := hi
      simp [Defers, hruns]
    · rcases mem_runs_exec ht with hold | ⟨k, rfl, hrun⟩
      · exact h t hold
      · exact defers_of_not_overrides (inv hr.of_restrict) ha.2 hrun
  breaks s label hr _ hbad := not_defers_of_overrides (inv hr.of_restrict) (not_not.mp hbad)

/-- In every state of a run the cancellations have respected the bookings in flight if and only if in
no step of it a cancellation's script meets a booking granted since its sidecar was read, or one on
its last attempt with the compare failing. -/
theorem cancellations_defer_iff {s : RedisSys} (hs : redisMachine.init s) {labels : List RedisLabel}
    (hr : redisMachine.Runs s labels) :
    redisMachine.Always Defers s labels ↔
      redisMachine.EachStep (fun s label => ¬ s.Overrides label) s labels :=
  defers_exactlyWhen.always_iff hs hr

/-- The store before anything happens. -/
def fresh : RedisSys := ⟨0, 60, .empty, fun _ => .idle, [], []⟩

theorem fresh_init : redisMachine.init fresh := ⟨by decide, rfl, fun _ => rfl, rfl, rfl⟩

/-- An active watch, and the claim of its first window. -/
def sampleWatch : Watch := Watch.sample "w" true 1000000000 5

def sampleRuntime : WatchRuntime := initialRuntime sampleWatch 5 true none

def sampleClaim : WindowClaim := ⟨sampleWatch, sampleRuntime, "a", "w:0", 1, 60000000⟩

/-- The labels that create the watch and claim its first window. -/
def claimRun : List RedisLabel :=
  [.create sampleWatch sampleRuntime, .claim "w" "w:0" "a" 60000000 false]

/-- A run in which a permit is granted between a cancellation's sidecar read and its script. -/
def overrideRun : List RedisLabel :=
  claimRun ++ [.cancel 0 "w", .step 0, .step 0, .begin sampleClaim, .step 0]

/-- The state after the run `overrideRun`. -/
def overridden : RedisSys := redisMachine.final fresh overrideRun

theorem overrideRun_runs : redisMachine.Runs fresh overrideRun := by decide +kernel

/-- The cancellation has applied while the booking was in flight. -/
theorem overridden_not_defers : ¬ overridden.Defers := by
  intro h
  have hrun : ∃ t ∈ overridden.runs, t.isCancel = true ∧
      t.before = (some sampleWatch, some { sampleRuntime with phase := some .booking }) ∧
      t.answer = some (.applied (sampleWatch.ended .cancelled 0) none 1) := by decide +kernel
  obtain ⟨t, ht, hcancel, hbefore, hanswer⟩ := hrun
  obtain ⟨w', hw'⟩ := (h t ht hcancel _ _ hbefore rfl rfl (by simp [hanswer])).1
  simp [hanswer] at hw'

/-- A cancellation can override a booking in flight. -/
theorem booking_overridden : ¬ ∀ s, redisMachine.Reach s → s.Defers := fun h =>
  overridden_not_defers (h overridden ((Machine.Reach.init fresh_init).final overrideRun_runs))

/-- In the run `overrideRun` a cancellation overrides a booking. -/
theorem cancellations_defer_iff_begin :
    ¬ redisMachine.EachStep (fun s label => ¬ s.Overrides label) fresh overrideRun := fun h =>
  overridden_not_defers ((cancellations_defer_iff fresh_init overrideRun_runs).mpr h).final

/-! ## Committed updates -/

/-- A sound client about to store a terminal document: if the script applies, it stores the ended
document that was read, one revision above the stored one, and the stored document is the one that was
stored when the sidecar was read. -/
theorem ending_applies {s : RedisSys} (hs : s.Inv) {k : ℕ} {t : ScriptRun}
    (ht : ((s.clients k).step s.retention s.now s.db).run = some t) {nw : Watch}
    (happlied : t.reply = .applied nw) :
    ∃ u w runtime stored r r' status moment,
      (s.clients k).ending = some (u, w, runtime, some stored) ∧ s.db.record u = (some stored, some r) ∧
      stored.status = .active ∧ s.db.overtaken u (casRevision runtime) = false ∧
      t.before = (some stored, some r) ∧ t.after = (some (w.ended status moment), some r') ∧
      r'.revision = r.revision + 1 := by
  have hsound := hs.sound k
  rcases run_cases ht with ⟨u, attempts, w, runtime, moment, current, hc⟩ |
    ⟨u, w, runtime, request, current, hc⟩
  · rw [hc] at hsound ht ⊢
    obtain ⟨expected, stored, r, rfl, hrec, -, hcurrent⟩ := hsound
    simp only [Client.step, Option.some.injEq] at ht
    subst ht
    by_cases hstop : stored.status ≠ .active ∨
        s.db.overtaken u (casRevision (some expected)) = true
    · obtain ⟨hreply, -⟩ := cancelScript_stopped (congrArg Prod.fst hrec) hstop
        (cancelMode s.retention moment w (some expected))
      rcases hreply with ⟨-, hreply⟩ | ⟨-, hreply⟩ <;> simp [hreply] at happlied
    · rw [not_or, not_not, Bool.not_eq_true] at hstop
      rcases cancelScript_runs hs.retention_nonneg hrec hstop.1 hstop.2 w moment with
        ⟨-, hreply, -⟩ | ⟨hp, -, hafter⟩
      · simp [hreply] at happlied
      · have hrev := Redis.revision_eq_of_not_overtaken (congrArg Prod.snd hrec) hstop.2
        obtain rfl := hcurrent hrev
        refine ⟨u, w, some expected, stored, r, expected.finished (moment + s.retention), .cancelled,
          moment, by simp [Client.ending, hp], hrec, hstop.1, hstop.2, hrec, ?_, ?_⟩
        · simp only [hafter, Function.update_self]
        · rw [hrev]
          rfl
  · rw [hc] at hsound ht ⊢
    obtain ⟨⟨expected, stored, r, rfl, hrec, -, hcurrent⟩, moment, revision, force, hreq⟩ := hsound
    simp only [Client.step, Option.some.injEq] at ht
    subst ht
    rcases expireScript_runs hs.retention_nonneg hrec hreq with
      ⟨hactive, hno, -, hafter⟩ | ⟨hreply, -⟩
    · have hrev := Redis.revision_eq_of_not_overtaken (congrArg Prod.snd hrec) hno
      obtain rfl := hcurrent hrev
      refine ⟨u, w, some expected, stored, r, expected.finished (moment + s.retention), .expired, moment,
        rfl, hrec, hactive, hno, hrec, ?_, ?_⟩
      · simp only [hafter, Function.update_self]
      · rw [hrev]
        rfl
    · exact absurd happlied (hreply nw)

/-- A client that is about to store a terminal document on an active watch, with the compare passing,
does so. -/
theorem ending_runs {s : RedisSys} (hs : s.Inv) {k : ℕ} {u : String} {w : Watch}
    {runtime : Option WatchRuntime} {current : Option Watch} {stored : Watch}
    (hc : (s.clients k).ending = some (u, w, runtime, current))
    (hw : (s.db.record u).1 = some stored) (hactive : stored.status = .active)
    (hno : s.db.overtaken u (casRevision runtime) = false) :
    ∃ t nw, ((s.clients k).step s.retention s.now s.db).run = some t ∧ t.reply = .applied nw := by
  have hsound := hs.sound k
  cases hk : s.clients k with
  | cancelSend v attempts w₁ runtime₁ moment current₁ =>
    rw [hk] at hc hsound
    simp only [Client.ending] at hc
    split at hc
    next => cases hc
    next hphase =>
      simp only [Option.some.injEq, Prod.mk.injEq] at hc
      obtain ⟨rfl, rfl, rfl, rfl⟩ := hc
      obtain ⟨expected, stored', r, rfl, hrec, -, -⟩ := hsound
      obtain rfl : stored' = stored := by simpa [hrec] using hw
      have hp : expected.phase ≠ some .booking := by simpa using hphase
      rcases cancelScript_runs hs.retention_nonneg hrec hactive hno w₁ moment with
        ⟨hp', -⟩ | ⟨-, hreply, -⟩
      · exact absurd hp' hp
      · exact ⟨_, _, rfl, hreply⟩
  | expireSend v w₁ runtime₁ request current₁ =>
    rw [hk] at hc hsound
    simp only [Client.ending, Option.some.injEq, Prod.mk.injEq] at hc
    obtain ⟨rfl, rfl, rfl, rfl⟩ := hc
    obtain ⟨⟨expected, stored', r, rfl, hrec, -, -⟩, moment, revision, force, hreq⟩ := hsound
    obtain rfl : stored' = stored := by simpa [hrec] using hw
    rcases s.db.expireScript_cases v (casRevision (some expected)) request.newWatch request.newRuntime
      request.eventId request.terminalDeleteMs request.retentionTtlMs with
      ⟨-, -, -, -, hreply, -⟩ | ⟨hreply, hsame⟩
    · exact ⟨_, _, rfl, hreply⟩
    · -- Nothing stops the script.
      have hget : s.db.watches.get? v = some stored' := hw
      exact absurd (by simp [Redis.expireScript, hget, hactive, hno]) (hreply request.newWatch)
  | _ => simp [hk, Client.ending] at hc

/-- What was stored is kept exactly as long as no terminal script discards a commit. -/
theorem keeps_exactlyWhen : redisMachine.ExactlyWhen Keeps fun s label => ¬ s.Discards label where
  holds s hs := by
    refine hs.invariant (fun s hi => ?_) fun s label hr h ha t ht => ?_
    · obtain ⟨-, -, -, -, hruns⟩ := hi
      simp [Keeps, hruns]
    · rcases mem_runs_exec ht with hold | ⟨k, rfl, hrun⟩
      · exact h t hold
      · intro nw happlied
        obtain ⟨u, w, runtime, stored, r, r', status, moment, hc, hrec, hactive, hno, hbefore, hafter,
          hrev⟩ := ending_applies (inv hr.of_restrict) hrun happlied
        refine ⟨stored, r, _, r', hbefore, hafter, (Watch.sameBut_ended ..).mpr ?_, hrev⟩
        by_contra hdiff
        exact ha.2 ⟨k, u, w, runtime, stored, stored, rfl, hc, congrArg Prod.fst hrec, hactive, hno,
          hdiff⟩
  breaks s label hr _ hbad := by
    obtain ⟨k, u, w, runtime, current, stored, rfl, hc, hw, hactive, hno, hdiff⟩ := not_not.mp hbad
    intro hkeeps
    obtain ⟨t, nw, ht, happlied⟩ := ending_runs (inv hr.of_restrict) hc hw hactive hno
    obtain ⟨u', w', runtime', stored', r, r', status, moment, hc', -, -, -, hbefore, hafter, -⟩ :=
      ending_applies (inv hr.of_restrict) ht happlied
    obtain ⟨rfl, rfl, rfl, rfl⟩ : u = u' ∧ w = w' ∧ runtime = runtime' ∧ current = stored' := by
      simpa using hc.symm.trans hc'
    obtain ⟨w₁, r₁, w₂, r₂, hb, haf, hsame, -⟩ := hkeeps t (run_mem_exec ht) nw happlied
    obtain ⟨rfl, -⟩ : current = w₁ ∧ r = r₁ := by simpa using hbefore.symm.trans hb
    obtain ⟨rfl, -⟩ : w.ended status moment = w₂ ∧ r' = r₂ := by simpa using hafter.symm.trans haf
    exact hdiff ((Watch.sameBut_ended ..).mp hsame)

/-- In every state of a run the terminal documents have kept what was stored if and only if no step of
it stores one that was read before a commit and whose sidecar was read after it. -/
theorem updates_kept_iff {s : RedisSys} (hs : redisMachine.init s) {labels : List RedisLabel}
    (hr : redisMachine.Runs s labels) :
    redisMachine.Always Keeps s labels ↔
      redisMachine.EachStep (fun s label => ¬ s.Discards label) s labels :=
  keeps_exactlyWhen.always_iff hs hr

/-- The document and the sidecar of the first miss. -/
def missedWatch : Watch := { sampleWatch with attempts := 1, lastCheckedAt := some 0 }

def missedRuntime : WatchRuntime :=
  { sampleRuntime with windowId := some "w:1", cadenceSequence := 1, scheduledFor := some 60000000 }

/-- A run in which a miss is committed between a cancellation's two reads. -/
def discardRun : List RedisLabel :=
  claimRun ++ [.cancel 0 "w", .step 0, .commit sampleClaim missedWatch missedRuntime, .step 0, .step 0]

/-- The state after the run `discardRun`. -/
def discarded : RedisSys := redisMachine.final fresh discardRun

theorem discardRun_runs : redisMachine.Runs fresh discardRun := by decide +kernel

/-- The attempt that was committed is gone. -/
theorem discarded_not_keeps : ¬ discarded.Keeps := by
  intro h
  have hrun : ∃ t ∈ discarded.runs, t.reply = .applied (sampleWatch.ended .cancelled 0) ∧
      t.before.1 = some missedWatch ∧ t.after.1 = some (sampleWatch.ended .cancelled 0) := by
    decide +kernel
  obtain ⟨t, ht, hreply, hbefore, hafter⟩ := hrun
  obtain ⟨w, r, w', r', hb, ha, hsame, -⟩ := h t ht _ hreply
  obtain rfl : w = missedWatch := by simpa [hb] using hbefore
  obtain rfl : w' = sampleWatch.ended .cancelled 0 := by simpa [ha] using hafter
  exact absurd (congrArg Watch.attempts hsame) (by decide)

/-- A cancellation can discard a commit. -/
theorem update_discarded : ¬ ∀ s, redisMachine.Reach s → s.Keeps := fun h =>
  discarded_not_keeps (h discarded ((Machine.Reach.init fresh_init).final discardRun_runs))

/-- In the run `discardRun` a cancellation discards a commit. -/
theorem updates_kept_iff_commit :
    ¬ redisMachine.EachStep (fun s label => ¬ s.Discards label) fresh discardRun := fun h =>
  discarded_not_keeps ((updates_kept_iff fresh_init discardRun_runs).mpr h).final

end RedisSys

end Dibs
