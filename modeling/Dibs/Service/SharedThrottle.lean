import Dibs.Models.Instants
import Dibs.Service.Throttle
import Dibs.Workers.Scheduler

/-!
# The throttle in Redis

`RedisSlidingWindowThrottle` of `backend/services/throttle.py`: a sorted set of events for each key, which expires
a second after its window. The application swaps it for the in-process throttle, and the two decide alike
(`throttles_agree`): both hold what counts of the same events.
-/

namespace Dibs

/-- A sorted set of event timestamps, and when it expires. -/
structure EventSet where
  members : Dict String ℚ
  expiresAt : ℚ

/-- `RedisSlidingWindowThrottle`, with the keys of its database. -/
structure RedisSlidingWindowThrottle where
  name : String
  maxEvents : ℕ
  windowSeconds : ℤ
  db : Dict String EventSet

/-- `f"{now:.6f}"`. -/
def sixDecimals (now : ℚ) : String :=
  let micros := roundHalfEven (now * 1000000)
  (if micros < 0 then "-" else "") ++ toString (micros.natAbs / 1000000) ++ "." ++
    String.ofList (padded 6 (micros.natAbs % 1000000))

namespace RedisSlidingWindowThrottle

/-- `like`: the same limit as an in-process throttle. -/
def like (t : SlidingWindowThrottle) (name : String) (db : Dict String EventSet) : RedisSlidingWindowThrottle :=
  ⟨name, t.maxEvents, t.windowSeconds, db⟩

variable (t : RedisSlidingWindowThrottle)

/-- The key of the sorted set of a caller. -/
def setKey (key : String) : String := "dibs:throttle:" ++ t.name ++ ":" ++ key

/-- The set under a key, unless it has expired. -/
def set? (key : String) (now : ℚ) : Option EventSet :=
  (t.db.get? (t.setKey key)).filter fun set => decide (now < set.expiresAt)

/-- The set under a key is replaced. An empty set is no key. -/
def put (key : String) (set : EventSet) : RedisSlidingWindowThrottle :=
  { t with db := if set.members.size = 0 then t.db.erase (t.setKey key) else t.db.insert (t.setKey key) set }

/-- The key is deleted. -/
def delete (key : String) : RedisSlidingWindowThrottle := { t with db := t.db.erase (t.setKey key) }

/-- `ZREMRANGEBYSCORE key -inf max`. -/
def zremrangebyscore (key : String) (now max : ℚ) : RedisSlidingWindowThrottle :=
  match t.set? key now with
  | none => t.delete key
  | some set => t.put key { set with members := set.members.filter fun _ score => decide (max < score) }

/-- `ZCARD`. -/
def zcard (key : String) (now : ℚ) : ℕ := ((t.set? key now).map fun set => set.members.size).getD 0

/-- `ZADD` and `EXPIRE`. -/
def zaddExpire (key : String) (now score : ℚ) (member : String) (seconds : ℤ) : RedisSlidingWindowThrottle :=
  let members := ((t.set? key now).map EventSet.members).getD .empty
  t.put key ⟨members.insert member score, now + seconds⟩

/-- `ZREM`. -/
def zrem (key : String) (now : ℚ) (member : String) : RedisSlidingWindowThrottle :=
  match t.set? key now with
  | none => t.delete key
  | some set => t.put key { set with members := set.members.erase member }

/-- `acheck`. -/
def acheck (key : String) (now : ℚ) : Except RateLimited Unit × RedisSlidingWindowThrottle :=
  let t := t.zremrangebyscore key now (now - t.windowSeconds)
  (if t.maxEvents ≤ t.zcard key now then .error .rateLimited else .ok (), t)

/-- `arecord`, with what `uuid4` draws. -/
def arecord (key : String) (now : ℚ) (token : String) : RedisSlidingWindowThrottle :=
  t.zaddExpire key now now (sixDecimals now ++ ":" ++ token) (t.windowSeconds + 1)

/-- `areset`. -/
def areset (key : String) : RedisSlidingWindowThrottle := t.delete key

/-- `_CONSUME_LUA`: whether the event is accepted. -/
def consumeScript (key : String) (cutoff : ℚ) (maxEvents : ℕ) (now : ℚ) (token : String) (seconds : ℤ) :
    Bool × RedisSlidingWindowThrottle :=
  let t := t.zremrangebyscore key now cutoff
  if maxEvents ≤ t.zcard key now then (false, t) else (true, t.zaddExpire key now now token seconds)

/-- `aconsume`: reserve quota atomically across all processes. -/
def aconsume (key : String) (now : ℚ) (token : String) :
    Except RateLimited (Option String) × RedisSlidingWindowThrottle :=
  let (accepted, t) :=
    t.consumeScript key (now - t.windowSeconds) t.maxEvents now token (t.windowSeconds + 1)
  (if accepted then .ok (some token) else .error .rateLimited, t)

/-- `arelease`. -/
def arelease (key : String) (now : ℚ) (token : Option String) : RedisSlidingWindowThrottle :=
  match token with
  | none => t
  | some token => t.zrem key now token

/-! ## What the sets hold -/

/-- What the database has under the key of a caller, expired or not. -/
def get (key : String) : Option EventSet := t.db.get? (t.setKey key)

/-- The members of a set with their scores. -/
def entriesOf (set : Option EventSet) : List (String × ℚ) := (set.map fun set => set.members.entries).getD []

/-- The window of a throttle in exact time. -/
def window : ℚ := t.windowSeconds

variable {t}

theorem setKey_inj {k k' : String} : t.setKey k = t.setKey k' ↔ k = k' := by
  unfold setKey
  exact String.append_right_inj _

theorem get_put (key : String) (set : EventSet) (k : String) :
    (t.put key set).get k = if key = k then (if set.members.size = 0 then none else some set) else t.get k := by
  unfold get put
  change Dict.get? (if set.members.size = 0 then _ else _) (t.setKey k) = _
  by_cases hk : key = k
  · subst hk
    rw [if_pos rfl]
    split_ifs
    · exact Dict.get?_erase_self _ _
    · exact Dict.get?_insert_self _ _ _
  · rw [if_neg hk]
    split_ifs
    · rw [Dict.get?_erase, if_neg (mt setKey_inj.mp hk)]
    · rw [Dict.get?_insert_ne _ _ (mt setKey_inj.mp hk)]

theorem get_delete (key k : String) : (t.delete key).get k = if key = k then none else t.get k := by
  unfold get delete
  change Dict.get? (t.db.erase _) (t.setKey k) = _
  rw [Dict.get?_erase]
  simp only [setKey_inj]

/-- A set that is stored has the members that it is stored with. -/
theorem entriesOf_get_put (key : String) (set : EventSet) :
    entriesOf ((t.put key set).get key) = set.members.entries := by
  rw [get_put, if_pos rfl]
  split_ifs with hempty
  · exact (List.length_eq_zero_iff.mp hempty).symm
  · rfl

/-- A new member goes to the end. -/
theorem entries_insert {d : Dict String ℚ} {member : String} (h : member ∉ d.entries.map Prod.fst) (score : ℚ) :
    (d.insert member score).entries = d.entries ++ [(member, score)] := by
  obtain ⟨l, hl⟩ := d
  change Dict.put l member score = l ++ [(member, score)]
  induction l with
  | nil => rfl
  | cons e l ih =>
    obtain ⟨m, v⟩ := e
    simp only [List.map_cons, List.mem_cons, not_or] at h
    rw [Dict.put, if_neg (Ne.symm h.1), ih (List.nodup_cons.mp hl).2 h.2]
    rfl

/-- A set holds what counts of the events that stand, and expires when none of its events can count. -/
structure Holds (window now : ℚ) (set : Option EventSet) (standing : List (String × ℚ)) : Prop where
  covers : SlidingWindow.Covers Prod.snd window now (entriesOf set) standing
  expires : ∀ s ∈ set, ∀ e ∈ s.members.entries, e.2 + (window + 1) ≤ s.expiresAt

namespace Holds

variable {now : ℚ} {set : Option EventSet} {standing : List (String × ℚ)} {window : ℚ}

theorem mono (h : Holds window now set standing) {later : ℚ} (hle : now ≤ later) :
    Holds window later set standing :=
  ⟨h.covers.mono hle, h.expires⟩

/-- What has expired did not count any more. -/
theorem filter (h : Holds window now set standing) :
    Holds window now (set.filter fun s => decide (now < s.expiresAt)) standing := by
  cases set with
  | none => exact h
  | some s =>
    by_cases hlive : now < s.expiresAt
    · rwa [Option.filter_some_pos (by simpa using hlive)]
    · rw [Option.filter_some_neg (by simpa using hlive)]
      refine ⟨⟨List.Pairwise.nil, by simp [entriesOf], h.covers.past, fun t ht => ?_⟩, by simp⟩
      have hgone : SlidingWindow.live Prod.snd window t s.members.entries = [] := by
        refine List.filter_eq_nil_iff.mpr fun e he => ?_
        have hexpires := h.expires s rfl e he
        simp only [decide_eq_true_eq, not_lt] at hlive ⊢
        linarith
      rw [← h.covers.live t ht]
      exact hgone.symm

/-- The old members are removed. -/
theorem trim {s : EventSet} (h : Holds window now (some s) standing) :
    SlidingWindow.Covers Prod.snd window now
      (s.members.filter fun _ score => decide (now - window < score)).entries standing := by
  have hprune := h.covers.prune le_rfl
  rwa [SlidingWindow.prune_eq_live h.covers.sorted] at hprune

end Holds

/-- An empty set is as good as none. -/
theorem Holds.put {window now : ℚ} {set : EventSet} {standing : List (String × ℚ)}
    (h : Holds window now (some set) standing) (key : String) :
    Holds window now ((t.put key set).get key) standing := by
  rw [get_put, if_pos rfl]
  split_ifs with hempty
  · refine ⟨?_, by simp⟩
    have hcovers := h.covers
    have hnil : set.members.entries = [] := List.length_eq_zero_iff.mp hempty
    unfold entriesOf at hcovers ⊢
    rw [Option.map_some, Option.getD_some, hnil] at hcovers
    exact hcovers
  · exact h

/-- What is left when the old members of a set are removed: the set holds the same events, and its members are
those that count. -/
theorem zremrangebyscore_spec {now : ℚ} {key : String} {standing : List (String × ℚ)}
    (h : Holds t.window now (t.get key) standing) :
    Holds t.window now ((t.zremrangebyscore key now (now - t.window)).get key) standing ∧
      (t.zremrangebyscore key now (now - t.window)).zcard key now =
        (SlidingWindow.live Prod.snd t.window now standing).length ∧
      (entriesOf ((t.zremrangebyscore key now (now - t.window)).get key)).Sublist (entriesOf (t.get key)) ∧
      (∀ k, key ≠ k → (t.zremrangebyscore key now (now - t.window)).get k = t.get k) ∧
      (t.zremrangebyscore key now (now - t.window)).maxEvents = t.maxEvents ∧
      (t.zremrangebyscore key now (now - t.window)).windowSeconds = t.windowSeconds := by
  have hfilter := h.filter
  have hset : t.set? key now = (t.get key).filter fun s => decide (now < s.expiresAt) := rfl
  unfold zremrangebyscore
  rw [hset]
  cases hcase : (t.get key).filter fun s => decide (now < s.expiresAt) with
  | none =>
    rw [hcase] at hfilter
    have hgone : (t.delete key).get key = none := by rw [get_delete, if_pos rfl]
    refine ⟨by rwa [hgone], ?_, ?_, fun k hk => by rw [get_delete, if_neg hk], rfl, rfl⟩
    · have hnil := hfilter.covers.live now le_rfl
      rw [← hnil]
      unfold zcard
      rw [show (t.delete key).set? key now = ((t.delete key).get key).filter _ from rfl, hgone]
      rfl
    · rw [hgone]
      exact List.nil_sublist _
  | some set =>
    rw [hcase] at hfilter
    obtain ⟨hget, hlive⟩ := Option.filter_eq_some_iff.mp hcase
    dsimp only
    generalize hnew : ({ set with
      members := set.members.filter fun _ score => decide (now - t.window < score) } : EventSet) = left
    have hleft : Holds t.window now (some left) standing := by
      rw [← hnew]
      exact ⟨hfilter.trim, fun s hs e he => by
        obtain rfl := Option.some.inj hs
        exact hfilter.expires set rfl e (List.mem_of_mem_filter he)⟩
    have hsub : left.members.entries.Sublist set.members.entries := by
      rw [← hnew]
      exact List.filter_sublist
    refine ⟨hleft.put key, ?_, ?_, fun k hk => by rw [get_put, if_neg hk], rfl, rfl⟩
    · have hentries := entriesOf_get_put (t := t) key left
      have hcount : (t.put key left).zcard key now = left.members.entries.length := by
        unfold zcard
        rw [show (t.put key left).set? key now = ((t.put key left).get key).filter _ from rfl, get_put, if_pos rfl]
        split_ifs with hempty
        · exact hempty.symm
        · rw [Option.filter_some_pos (by rw [← hnew]; exact hlive)]
          rfl
      have hlength : left.members.entries = SlidingWindow.live Prod.snd t.window now standing := by
        have hcovers := hfilter.covers.live now le_rfl
        rw [← hcovers, ← hnew]
        rfl
      rw [hcount, hlength]
    · rw [entriesOf_get_put, hget]
      exact hsub

/-- An event is added. -/
theorem zaddExpire_spec {now : ℚ} {key : String} {standing : List (String × ℚ)} {member : String}
    (h : Holds t.window now (t.get key) standing) (hnew : member ∉ (entriesOf (t.get key)).map Prod.fst) :
    Holds t.window now ((t.zaddExpire key now now member (t.windowSeconds + 1)).get key)
        (standing ++ [(member, now)]) ∧
      (∀ e ∈ entriesOf ((t.zaddExpire key now now member (t.windowSeconds + 1)).get key),
        e ∈ entriesOf (t.get key) ∨ e = (member, now)) ∧
      (∀ k, key ≠ k → (t.zaddExpire key now now member (t.windowSeconds + 1)).get k = t.get k) := by
  have hfilter := h.filter
  have hset : t.set? key now = (t.get key).filter fun s => decide (now < s.expiresAt) := rfl
  -- The members that are still there.
  obtain ⟨members, hmembers, hcovers, hsub⟩ : ∃ members : Dict String ℚ,
      ((t.set? key now).map EventSet.members).getD .empty = members ∧
        SlidingWindow.Covers Prod.snd t.window now members.entries standing ∧
        ∀ e ∈ members.entries, e ∈ entriesOf (t.get key) := by
    rw [hset]
    cases hcase : (t.get key).filter fun s => decide (now < s.expiresAt) with
    | none =>
      rw [hcase] at hfilter
      exact ⟨.empty, rfl, hfilter.covers, fun e he => absurd he List.not_mem_nil⟩
    | some set =>
      rw [hcase] at hfilter
      obtain ⟨hget, -⟩ := Option.filter_eq_some_iff.mp hcase
      exact ⟨set.members, rfl, hfilter.covers, fun e he => by rw [hget]; exact he⟩
  unfold zaddExpire
  dsimp only
  rw [hmembers]
  have habsent : member ∉ members.entries.map Prod.fst := by
    intro hmem
    obtain ⟨e, he, rfl⟩ := List.mem_map.mp hmem
    exact hnew (List.mem_map_of_mem (hsub e he))
  have hentries := entries_insert habsent now
  have happend := hcovers.append (e := (member, now)) le_rfl
  refine ⟨Holds.put ⟨?_, ?_⟩ key, fun e he => ?_, fun k hk => by rw [get_put, if_neg hk]⟩
  · unfold entriesOf
    rw [Option.map_some, Option.getD_some, hentries]
    exact happend
  · intro s hs e he
    obtain rfl := Option.some.inj hs
    have hpast := happend.storedPast e (by rw [← hentries]; exact he)
    unfold window
    push_cast
    linarith
  · rw [entriesOf_get_put, hentries] at he
    rcases List.mem_append.mp he with he | he
    · exact .inl (hsub e he)
    · exact .inr (List.mem_singleton.mp he)

/-- A member is removed. -/
theorem zrem_spec {now : ℚ} {key : String} {standing : List (String × ℚ)} (member : String)
    (h : Holds t.window now (t.get key) standing) :
    Holds t.window now ((t.zrem key now member).get key) (standing.filter fun e => !decide (e.1 = member)) ∧
      (entriesOf ((t.zrem key now member).get key)).Sublist (entriesOf (t.get key)) ∧
      (∀ k, key ≠ k → (t.zrem key now member).get k = t.get k) ∧
      (t.zrem key now member).maxEvents = t.maxEvents ∧ (t.zrem key now member).windowSeconds = t.windowSeconds := by
  have hfilter := h.filter
  have hset : t.set? key now = (t.get key).filter fun s => decide (now < s.expiresAt) := rfl
  unfold zrem
  rw [hset]
  cases hcase : (t.get key).filter fun s => decide (now < s.expiresAt) with
  | none =>
    rw [hcase] at hfilter
    have hgone : (t.delete key).get key = none := by rw [get_delete, if_pos rfl]
    refine ⟨?_, by rw [hgone]; exact List.nil_sublist _, fun k hk => by rw [get_delete, if_neg hk], rfl, rfl⟩
    rw [hgone]
    exact ⟨hfilter.covers.filter _, by simp⟩
  | some set =>
    rw [hcase] at hfilter
    obtain ⟨hget, -⟩ := Option.filter_eq_some_iff.mp hcase
    refine ⟨Holds.put ⟨hfilter.covers.filter _, ?_⟩ key, ?_, fun k hk => by rw [get_put, if_neg hk], rfl, rfl⟩
    · intro s hs e he
      obtain rfl := Option.some.inj hs
      exact hfilter.expires set rfl e (List.mem_of_mem_filter he)
    · rw [entriesOf_get_put, hget]
      exact List.filter_sublist

end RedisSlidingWindowThrottle

namespace RedisSlidingWindowThrottle

variable {t : RedisSlidingWindowThrottle} {now : ℚ} {key : String} {standing : List (String × ℚ)}

/-- A check is refused when the limit of events counts. -/
theorem acheck_eq (h : Holds t.window now (t.get key) standing) :
    t.acheck key now =
      (if t.maxEvents ≤ (SlidingWindow.live Prod.snd t.window now standing).length then .error .rateLimited
        else .ok (), t.zremrangebyscore key now (now - t.window)) := by
  obtain ⟨-, hcard, -, -, hmax, -⟩ := zremrangebyscore_spec h
  rw [← hcard, ← hmax]
  rfl

/-- So is a reservation, and otherwise its event is added. -/
theorem aconsume_eq (h : Holds t.window now (t.get key) standing) (token : String) :
    t.aconsume key now token =
      if t.maxEvents ≤ (SlidingWindow.live Prod.snd t.window now standing).length then
        (.error .rateLimited, t.zremrangebyscore key now (now - t.window))
      else
        (.ok (some token), (t.zremrangebyscore key now (now - t.window)).zaddExpire key now now token
          (t.windowSeconds + 1)) := by
  obtain ⟨-, hcard, -⟩ := zremrangebyscore_spec h
  rw [← hcard]
  have hconsume : ∀ {accepted : Bool} {u : RedisSlidingWindowThrottle},
      t.consumeScript key (now - t.window) t.maxEvents now token (t.windowSeconds + 1) = (accepted, u) →
        t.aconsume key now token = (if accepted then .ok (some token) else .error .rateLimited, u) := by
    intro accepted u hscript
    calc t.aconsume key now token
        = (if (t.consumeScript key (now - t.window) t.maxEvents now token (t.windowSeconds + 1)).1 then
              .ok (some token) else .error .rateLimited,
            (t.consumeScript key (now - t.window) t.maxEvents now token (t.windowSeconds + 1)).2) := rfl
      _ = (if accepted then .ok (some token) else .error .rateLimited, u) := by rw [hscript]
  by_cases hfull : t.maxEvents ≤ (t.zremrangebyscore key now (now - t.window)).zcard key now
  · rw [if_pos hfull]
    exact hconsume (if_pos hfull)
  · rw [if_neg hfull]
    exact hconsume (if_neg hfull)

end RedisSlidingWindowThrottle

/-! ## Both throttles on one trace -/

/-- An event as both throttles have it: the member of the sorted set is the token, or carries it. -/
structure SharedEvent where
  time : ℚ
  token : String
  member : String

/-- The event of a deque. -/
def SharedEvent.event (e : SharedEvent) : ThrottleEvent := ⟨e.time, e.token⟩

/-- The member of a sorted set and its score. -/
def SharedEvent.scored (e : SharedEvent) : String × ℚ := (e.member, e.time)

/-- An operation of the interface that both throttles have. -/
inductive ThrottleCall
  | acheck (key : String)
  | arecord (key token : String)
  | aconsume (key token : String)
  | arelease (key : String) (token : Option String)
  | areset (key : String)

/-- The two throttles after some operations, with the instant of the last one, the events that were recorded and
neither released nor reset, the tokens that were drawn, and those that were returned to a caller. -/
structure ThrottlePair where
  here : SlidingWindowThrottle
  shared : RedisSlidingWindowThrottle
  now : ℚ
  standing : String → List SharedEvent
  drawn : List String
  returned : List String

namespace ThrottlePair

/-- An event is recorded. -/
def withEvent (standing : String → List SharedEvent) (key : String) (e : SharedEvent) :
    String → List SharedEvent :=
  fun k => if key = k then standing k ++ [e] else standing k

/-- Whether the two throttles accept an operation. -/
def accepts (s : ThrottlePair) : ThrottleCall × ℚ → Bool × Bool
  | (.acheck key, now) => ((s.here.check key now).1.toBool, (s.shared.acheck key now).1.toBool)
  | (.aconsume key token, now) =>
    ((s.here.aconsume key (.once now) token).1.toBool, (s.shared.aconsume key now token).1.toBool)
  | _ => (true, true)

/-- One operation on both, at one instant. -/
def exec : ThrottleCall × ℚ → ThrottlePair → ThrottlePair
  | (.acheck key, now), s =>
    { s with here := (s.here.check key now).2, shared := (s.shared.acheck key now).2, now := now }
  | (.arecord key token, now), s =>
    { s with
      here := (s.here.record key (.once now) token).2
      shared := s.shared.arecord key now token
      now := now
      standing := withEvent s.standing key ⟨now, token, sixDecimals now ++ ":" ++ token⟩
      drawn := token :: s.drawn }
  | (.aconsume key token, now), s =>
    { s with
      here := (s.here.aconsume key (.once now) token).2
      shared := (s.shared.aconsume key now token).2
      now := now
      standing := if (s.accepts (.aconsume key token, now)).1 then withEvent s.standing key ⟨now, token, token⟩
        else s.standing
      drawn := token :: s.drawn
      returned := token :: s.returned }
  | (.arelease key token, now), s =>
    { s with
      here := s.here.arelease key token now
      shared := s.shared.arelease key now token
      now := now
      standing := fun k => if key = k then (s.standing k).filter (fun e => !decide (token = some e.token))
        else s.standing k }
  | (.areset key, now), s =>
    { s with
      here := s.here.areset key
      shared := s.shared.areset key
      now := now
      standing := fun k => if key = k then [] else s.standing k }

/-- The clock does not go back, `uuid4` draws new tokens in hexadecimal, callers release what they were given,
and there is room for another key. -/
def allowed (s : ThrottlePair) : ThrottleCall × ℚ → Prop
  | (.arecord _ token, now) | (.aconsume _ token, now) =>
    s.now ≤ now ∧ s.here.failures.size < maxTrackedKeys ∧ token ∉ s.drawn ∧ ':' ∉ token.toList
  | (.arelease _ token, now) =>
    s.now ≤ now ∧ s.here.failures.size < maxTrackedKeys ∧ ∀ t ∈ token, t ∈ s.returned
  | (_, now) => s.now ≤ now ∧ s.here.failures.size < maxTrackedKeys

/-- All traces on two throttles with one limit and one window that begin with no events. -/
def machine (maxEvents : ℕ) (windowSeconds : ℤ) : Machine ThrottlePair (ThrottleCall × ℚ) where
  init s := s.here = .new maxEvents windowSeconds ∧ (∃ name, s.shared = .like s.here name .empty) ∧
    (∀ key, s.standing key = []) ∧ s.drawn = [] ∧ s.returned = []
  allowed := allowed
  exec := exec

/-- The live events of a key in the deque of the in-process throttle. -/
def liveHere (s : ThrottlePair) (key : String) : ℕ :=
  (SlidingWindow.live ThrottleEvent.time s.here.window s.now (s.here.stored key)).length

/-- The live events of a key in the sorted set, unless it has expired. -/
def liveShared (s : ThrottlePair) (key : String) : ℕ :=
  (SlidingWindow.live Prod.snd s.shared.window s.now
    (RedisSlidingWindowThrottle.entriesOf (s.shared.set? key s.now))).length

/-- A member that was added for one of the tokens. -/
def Known (drawn : List String) (member : String) : Prop :=
  ∃ token ∈ drawn, member = token ∨ ∃ stamp, member = stamp ++ ":" ++ token

/-- What every operation keeps. -/
structure Inv (maxEvents : ℕ) (windowSeconds : ℤ) (s : ThrottlePair) : Prop where
  limits : s.here.maxEvents = maxEvents ∧ s.shared.maxEvents = maxEvents
  widths : s.here.windowSeconds = windowSeconds ∧ s.shared.windowSeconds = windowSeconds
  tracks : s.here.Tracks s.now fun key => (s.standing key).map SharedEvent.event
  holds : ∀ key, RedisSlidingWindowThrottle.Holds s.shared.window s.now (s.shared.get key)
    ((s.standing key).map SharedEvent.scored)
  known : ∀ key, ∀ e ∈ RedisSlidingWindowThrottle.entriesOf (s.shared.get key), Known s.drawn e.1
  drawn : ∀ key, ∀ e ∈ s.standing key, e.token ∈ s.drawn
  /-- The member of a reservation is its token; that of another event carries a token nobody was given. -/
  member : ∀ key, ∀ e ∈ s.standing key, e.member = e.token ∨
    ':' ∈ e.member.toList ∧ e.token ∉ s.returned
  nodup : ∀ key, ((s.standing key).map SharedEvent.token).Nodup
  plain : ∀ token ∈ s.drawn, ':' ∉ token.toList
  returned : ∀ token ∈ s.returned, token ∈ s.drawn

/-- A text after the last colon. -/
theorem eq_of_append_colon {stamp stamp' token token' : String} (h : ':' ∉ token.toList)
    (h' : ':' ∉ token'.toList) (heq : stamp ++ ":" ++ token = stamp' ++ ":" ++ token') : token = token' := by
  have hlists := congrArg String.toList heq
  have hcolon : ":".toList = [':'] := by decide
  rw [String.toList_append, String.toList_append, String.toList_append, String.toList_append, hcolon,
    List.append_assoc, List.append_assoc, List.singleton_append, List.singleton_append] at hlists
  exact String.toList_injective (append_cons_inj_of_notMem h h' hlists).2

/-- A new token makes a new member. -/
theorem Inv.fresh {maxEvents : ℕ} {windowSeconds : ℤ} {s : ThrottlePair} (h : s.Inv maxEvents windowSeconds)
    {token : String} (hnew : token ∉ s.drawn) (hplain : ':' ∉ token.toList) {member : String}
    (hmember : member = token ∨ ∃ stamp, member = stamp ++ ":" ++ token) (key : String) :
    member ∉ (RedisSlidingWindowThrottle.entriesOf (s.shared.get key)).map Prod.fst := by
  have hcolon : ∀ stamp t : String, ':' ∈ (stamp ++ ":" ++ t).toList := by
    intro stamp t
    rw [String.toList_append, String.toList_append]
    exact List.mem_append_left _ (List.mem_append_right _ (by decide))
  intro hmem
  obtain ⟨e, he, rfl⟩ := List.mem_map.mp hmem
  obtain ⟨token', hdrawn, hknown⟩ := h.known key e he
  have hplain' := h.plain token' hdrawn
  rcases hmember with hm | ⟨stamp, hm⟩
  · rcases hknown with hk | ⟨stamp', hk⟩
    · exact hnew (hm ▸ hk ▸ hdrawn)
    · exact hplain (hm ▸ hk ▸ hcolon stamp' token')
  · rcases hknown with hk | ⟨stamp', hk⟩
    · exact hplain' (hk ▸ hm ▸ hcolon stamp token)
    · obtain rfl := eq_of_append_colon hplain hplain' (hm.symm.trans hk)
      exact hnew hdrawn

variable {maxEvents : ℕ} {windowSeconds : ℤ} {s : ThrottlePair}

/-- What counts of the events that stand is the same for both throttles. -/
theorem live_map {α : Type} (f : SharedEvent → α) (time : α → ℚ) (htime : ∀ e, time (f e) = e.time)
    (window now : ℚ) (l : List SharedEvent) :
    (SlidingWindow.live time window now (l.map f)).length =
      (SlidingWindow.live SharedEvent.time window now l).length := by
  unfold SlidingWindow.live
  rw [List.filter_map, List.length_map]
  congr 1
  refine List.filter_congr fun e _ => ?_
  rw [Function.comp_apply, htime]

/-- The two throttles count alike at any instant from now on. -/
theorem Inv.counts (h : s.Inv maxEvents windowSeconds) (key : String) (now : ℚ) :
    (SlidingWindow.live Prod.snd s.shared.window now ((s.standing key).map SharedEvent.scored)).length =
      (SlidingWindowThrottle.counting s.here.window now ((s.standing key).map SharedEvent.event)).length := by
  have hwindow : s.shared.window = s.here.window := by
    unfold RedisSlidingWindowThrottle.window SlidingWindowThrottle.window
    rw [h.widths.1, h.widths.2]
  unfold SlidingWindowThrottle.counting
  rw [live_map SharedEvent.scored Prod.snd (fun _ => rfl), live_map SharedEvent.event ThrottleEvent.time
    (fun _ => rfl), hwindow]

/-- At one instant both throttles are at the limit or neither is. -/
theorem Inv.decisions (hmax : 1 ≤ maxEvents) (h : s.Inv maxEvents windowSeconds) {i : ThrottleCall × ℚ}
    (ha : allowed s i) : (s.accepts i).1 = (s.accepts i).2 := by
  obtain ⟨call, now⟩ := i
  have hone : 1 ≤ s.here.maxEvents := hmax.trans_eq h.limits.1.symm
  have hlimits : s.shared.maxEvents = s.here.maxEvents := h.limits.2.trans h.limits.1.symm
  cases call with
  | arecord | arelease | areset => rfl
  | acheck key =>
    have hcheck := h.tracks.check ha.1 hone key
    unfold accepts
    dsimp only
    rw [RedisSlidingWindowThrottle.acheck_eq ((h.holds key).mono ha.1), h.counts key now, hlimits]
    cases hanswer : (s.here.check key now).1 with
    | error e => rw [if_pos (hcheck.mp hanswer)]
    | ok passed =>
      rw [if_neg fun hfull => by rw [hcheck.mpr hfull] at hanswer; contradiction]
  | aconsume key token =>
    have hconsume := h.tracks.aconsume (r := .once now) ha.1 hone key token
    have hchecked : (Readings.once now).checked = now := rfl
    rw [hchecked] at hconsume
    unfold accepts
    dsimp only
    rw [RedisSlidingWindowThrottle.aconsume_eq ((h.holds key).mono ha.1), h.counts key now, hlimits]
    rcases hconsume with ⟨hanswer, hfull, -⟩ | ⟨hroom, ⟨hanswer, -⟩ | ⟨hanswer, -, -⟩⟩
    · rw [hanswer, if_pos hfull]
    · rw [hanswer, if_neg (not_le.mpr hroom)]
    · rw [hanswer, if_neg (not_le.mpr hroom)]
      rfl

/-- Operations that only take events away keep the invariant. -/
theorem Inv.fewer (h : s.Inv maxEvents windowSeconds) {here : SlidingWindowThrottle}
    {shared : RedisSlidingWindowThrottle} {now : ℚ} {standing : String → List SharedEvent}
    (hwithin : SlidingWindowThrottle.Within s.here here)
    (htracks : here.Tracks now fun key => (standing key).map SharedEvent.event)
    (hframe : shared.maxEvents = s.shared.maxEvents ∧ shared.windowSeconds = s.shared.windowSeconds)
    (hholds : ∀ key, RedisSlidingWindowThrottle.Holds s.shared.window now (shared.get key)
      ((standing key).map SharedEvent.scored))
    (hentries : ∀ key, ∀ e ∈ RedisSlidingWindowThrottle.entriesOf (shared.get key),
      e ∈ RedisSlidingWindowThrottle.entriesOf (s.shared.get key))
    (hsub : ∀ key, (standing key).Sublist (s.standing key)) :
    Inv maxEvents windowSeconds ⟨here, shared, now, standing, s.drawn, s.returned⟩ where
  limits := ⟨hwithin.maxEvents.trans h.limits.1, hframe.1.trans h.limits.2⟩
  widths := ⟨hwithin.windowSeconds.trans h.widths.1, hframe.2.trans h.widths.2⟩
  tracks := htracks
  holds key := by
    have hwindow : shared.window = s.shared.window := congrArg Int.cast hframe.2
    rw [hwindow]
    exact hholds key
  known key e he := h.known key e (hentries key e he)
  drawn key e he := h.drawn key e ((hsub key).mem he)
  member key e he := h.member key e ((hsub key).mem he)
  nodup key := (h.nodup key).sublist ((hsub key).map _)
  plain := h.plain
  returned := h.returned

/-- So does drawing a token, whether it is returned or not. -/
theorem Inv.draw (h : s.Inv maxEvents windowSeconds) {token : String} (hnew : token ∉ s.drawn)
    (hplain : ':' ∉ token.toList) {returned : List String}
    (hreturned : ∀ t ∈ returned, t = token ∨ t ∈ s.returned) :
    Inv maxEvents windowSeconds { s with drawn := token :: s.drawn, returned := returned } where
  limits := h.limits
  widths := h.widths
  tracks := h.tracks
  holds := h.holds
  known key e he := by
    obtain ⟨t, ht, hmember⟩ := h.known key e he
    exact ⟨t, List.mem_cons_of_mem _ ht, hmember⟩
  drawn key e he := List.mem_cons_of_mem _ (h.drawn key e he)
  member key e he := by
    refine (h.member key e he).imp_right fun hkept => ⟨hkept.1, fun hmem => ?_⟩
    rcases hreturned _ hmem with heq | hmem
    · exact hnew (heq ▸ h.drawn key e he)
    · exact hkept.2 hmem
  nodup := h.nodup
  plain t ht := by
    rcases List.mem_cons.mp ht with rfl | ht
    · exact hplain
    · exact h.plain t ht
  returned t ht := by
    rcases hreturned t ht with rfl | ht
    · exact List.mem_cons_self
    · exact List.mem_cons_of_mem _ (h.returned t ht)

/-- So does recording an event whose token is new, in both. -/
theorem Inv.more (h : s.Inv maxEvents windowSeconds) {here : SlidingWindowThrottle}
    {shared : RedisSlidingWindowThrottle} {key : String} {e : SharedEvent} {returned : List String}
    (hnew : e.token ∉ s.drawn) (hplain : ':' ∉ e.token.toList)
    (hreturned : ∀ t ∈ returned, t = e.token ∨ t ∈ s.returned)
    (hmember : e.member = e.token ∨
      (∃ stamp, e.member = stamp ++ ":" ++ e.token) ∧ returned = s.returned)
    (hwithin : SlidingWindowThrottle.Within s.here here)
    (htracks : here.Tracks e.time (SlidingWindowThrottle.withEvent
      (fun k => (s.standing k).map SharedEvent.event) key e.event))
    (hframe : shared.maxEvents = s.shared.maxEvents ∧ shared.windowSeconds = s.shared.windowSeconds)
    (hholds : ∀ k, RedisSlidingWindowThrottle.Holds s.shared.window e.time (shared.get k)
      (if key = k then (s.standing k).map SharedEvent.scored ++ [e.scored]
        else (s.standing k).map SharedEvent.scored))
    (hentries : ∀ k, ∀ x ∈ RedisSlidingWindowThrottle.entriesOf (shared.get k),
      x ∈ RedisSlidingWindowThrottle.entriesOf (s.shared.get k) ∨ x = e.scored) :
    Inv maxEvents windowSeconds
      ⟨here, shared, e.time, withEvent s.standing key e, e.token :: s.drawn, returned⟩ := by
  have hdraw := h.draw hnew hplain hreturned
  have hstanding : ∀ k, ∀ x ∈ withEvent s.standing key e k, x ∈ s.standing k ∨ x = e := by
    intro k x hx
    unfold withEvent at hx
    split_ifs at hx
    · rcases List.mem_append.mp hx with hx | hx
      · exact .inl hx
      · exact .inr (List.mem_singleton.mp hx)
    · exact .inl hx
  refine ⟨⟨hwithin.maxEvents.trans h.limits.1, hframe.1.trans h.limits.2⟩,
    ⟨hwithin.windowSeconds.trans h.widths.1, hframe.2.trans h.widths.2⟩, ?_, fun k => ?_, fun k x hx => ?_,
    fun k x hx => ?_, fun k x hx => ?_, fun k => ?_, hdraw.plain, hdraw.returned⟩
  · intro k
    have hk := htracks k
    unfold SlidingWindowThrottle.withEvent at hk
    dsimp only [withEvent]
    split_ifs at hk ⊢
    · rw [List.map_append]
      exact hk
    · exact hk
  · have hwindow : shared.window = s.shared.window := congrArg Int.cast hframe.2
    have hk := hholds k
    rw [hwindow]
    dsimp only [withEvent]
    split_ifs at hk ⊢
    · rw [List.map_append]
      exact hk
    · exact hk
  · rcases hentries k x hx with hx | rfl
    · exact hdraw.known k x hx
    · exact ⟨e.token, List.mem_cons_self, hmember.imp_right And.left⟩
  · rcases hstanding k x hx with hx | rfl
    · exact hdraw.drawn k x hx
    · exact List.mem_cons_self
  · rcases hstanding k x hx with hx | rfl
    · exact hdraw.member k x hx
    · refine hmember.imp_right fun ⟨⟨stamp, hstamp⟩, hsame⟩ => ⟨?_, fun hmem => ?_⟩
      · rw [hstamp, String.toList_append, String.toList_append]
        exact List.mem_append_left _ (List.mem_append_right _ (by decide))
      · exact hnew (h.returned _ (hsame ▸ hmem))
  · dsimp only [withEvent]
    split_ifs
    · rw [List.map_append, List.nodup_append]
      refine ⟨h.nodup k, List.nodup_singleton _, fun a ha b hb hab => ?_⟩
      obtain ⟨x, hx, rfl⟩ := List.mem_map.mp ha
      obtain rfl := List.mem_singleton.mp hb
      exact hnew (hab ▸ h.drawn k x hx)
    · exact h.nodup k

/-- The old members of one set are removed. -/
theorem Inv.trim (h : s.Inv maxEvents windowSeconds) {now : ℚ} (hle : s.now ≤ now) (key k : String) :
    RedisSlidingWindowThrottle.Holds s.shared.window now
        ((s.shared.zremrangebyscore key now (now - s.shared.window)).get k)
        ((s.standing k).map SharedEvent.scored) ∧
      ∀ e ∈ RedisSlidingWindowThrottle.entriesOf
          ((s.shared.zremrangebyscore key now (now - s.shared.window)).get k),
        e ∈ RedisSlidingWindowThrottle.entriesOf (s.shared.get k) := by
  obtain ⟨hholds, -, hsub, hothers, -⟩ :=
    RedisSlidingWindowThrottle.zremrangebyscore_spec ((h.holds key).mono hle)
  by_cases hk : key = k
  · subst hk
    exact ⟨hholds, fun e he => hsub.mem he⟩
  · rw [hothers k hk]
    exact ⟨(h.holds k).mono hle, fun e he => he⟩

/-- An event is added to a set that holds what counts. -/
theorem holds_add {shared : RedisSlidingWindowThrottle} {now : ℚ} {key member : String}
    (hwidth : shared.windowSeconds = s.shared.windowSeconds)
    (hholds : ∀ k, RedisSlidingWindowThrottle.Holds s.shared.window now (shared.get k)
      ((s.standing k).map SharedEvent.scored))
    (hentries : ∀ k, ∀ e ∈ RedisSlidingWindowThrottle.entriesOf (shared.get k),
      e ∈ RedisSlidingWindowThrottle.entriesOf (s.shared.get k))
    (hnew : member ∉ (RedisSlidingWindowThrottle.entriesOf (s.shared.get key)).map Prod.fst) (k : String) :
    RedisSlidingWindowThrottle.Holds s.shared.window now
        ((shared.zaddExpire key now now member (s.shared.windowSeconds + 1)).get k)
        (if key = k then (s.standing k).map SharedEvent.scored ++ [(member, now)]
          else (s.standing k).map SharedEvent.scored) ∧
      ∀ e ∈ RedisSlidingWindowThrottle.entriesOf
          ((shared.zaddExpire key now now member (s.shared.windowSeconds + 1)).get k),
        e ∈ RedisSlidingWindowThrottle.entriesOf (s.shared.get k) ∨ e = (member, now) := by
  have hwindow : shared.window = s.shared.window := congrArg Int.cast hwidth
  have hkey := hholds key
  rw [← hwindow] at hkey
  have habsent : member ∉ (RedisSlidingWindowThrottle.entriesOf (shared.get key)).map Prod.fst := by
    intro hmem
    obtain ⟨e, he, rfl⟩ := List.mem_map.mp hmem
    exact hnew (List.mem_map_of_mem (hentries key e he))
  obtain ⟨hadded, hmembers, hothers⟩ := RedisSlidingWindowThrottle.zaddExpire_spec hkey habsent
  rw [hwindow, hwidth] at hadded
  rw [hwidth] at hmembers hothers
  by_cases hk : key = k
  · subst hk
    rw [if_pos rfl]
    exact ⟨hadded, fun e he => (hmembers e he).imp_left (hentries key e)⟩
  · rw [if_neg hk, hothers k hk]
    exact ⟨hholds k, fun e he => .inl (hentries k e he)⟩

/-- The member of a token that was returned is the event of that token. -/
theorem Inv.member_iff (h : s.Inv maxEvents windowSeconds) {token : String} (hgiven : token ∈ s.returned)
    {key : String} {e : SharedEvent} (he : e ∈ s.standing key) : e.member = token ↔ token = e.token := by
  rcases h.member key e he with hsame | ⟨hcolon, hkept⟩
  · rw [hsame]
    exact eq_comm
  · have hplain := h.plain token (h.returned token hgiven)
    constructor
    · intro heq
      exact absurd hcolon (heq ▸ hplain)
    · intro heq
      exact absurd hgiven (heq ▸ hkept)

/-- A release removes the same event from the sorted set. -/
theorem Inv.released (h : s.Inv maxEvents windowSeconds) {now : ℚ} (hle : s.now ≤ now) {token : Option String}
    (hgiven : ∀ t ∈ token, t ∈ s.returned) (key : String) :
    ((s.shared.arelease key now token).maxEvents = s.shared.maxEvents ∧
        (s.shared.arelease key now token).windowSeconds = s.shared.windowSeconds) ∧
      ∀ k, RedisSlidingWindowThrottle.Holds s.shared.window now ((s.shared.arelease key now token).get k)
          ((if key = k then (s.standing k).filter (fun e => !decide (token = some e.token))
            else s.standing k).map SharedEvent.scored) ∧
        ∀ e ∈ RedisSlidingWindowThrottle.entriesOf ((s.shared.arelease key now token).get k),
          e ∈ RedisSlidingWindowThrottle.entriesOf (s.shared.get k) := by
  cases token with
  | none =>
    refine ⟨⟨rfl, rfl⟩, fun k => ⟨?_, fun e he => he⟩⟩
    have hsame : (if key = k then (s.standing k).filter (fun e => !decide (none = some e.token))
        else s.standing k) = s.standing k := by simp
    rw [hsame]
    exact (h.holds k).mono hle
  | some token =>
    obtain ⟨hholds, hsub, hothers, hframe⟩ :=
      RedisSlidingWindowThrottle.zrem_spec token ((h.holds key).mono hle)
    refine ⟨hframe, fun k => ?_⟩
    unfold RedisSlidingWindowThrottle.arelease
    dsimp only
    by_cases hk : key = k
    · subst hk
      have hfilter : ((s.standing key).map SharedEvent.scored).filter (fun e => !decide (e.1 = token)) =
          ((s.standing key).filter fun e => !decide (some token = some e.token)).map SharedEvent.scored := by
        rw [List.filter_map]
        congr 1
        refine List.filter_congr fun e he => ?_
        simp [SharedEvent.scored, h.member_iff (hgiven token rfl) he]
      rw [if_pos rfl, ← hfilter]
      exact ⟨hholds, fun e he => hsub.mem he⟩
    · rw [if_neg hk, hothers k hk]
      exact ⟨(h.holds k).mono hle, fun e he => he⟩

/-- What a reservation makes of the two throttles, by their answers. -/
theorem exec_aconsume {key token : String} {now : ℚ} {answer : Except RateLimited (Option String)}
    {shared : RedisSlidingWindowThrottle} (hhere : (s.here.aconsume key (.once now) token).1 = answer)
    (hshared : (s.shared.aconsume key now token).2 = shared) :
    exec (.aconsume key token, now) s =
      ⟨(s.here.aconsume key (.once now) token).2, shared, now,
        if answer.toBool then withEvent s.standing key ⟨now, token, token⟩ else s.standing, token :: s.drawn,
        token :: s.returned⟩ := by
  subst hhere hshared
  rfl

/-- Every operation keeps the invariant. -/
theorem Inv.exec (hmax : 1 ≤ maxEvents) (h : s.Inv maxEvents windowSeconds) {i : ThrottleCall × ℚ}
    (ha : allowed s i) : (exec i s).Inv maxEvents windowSeconds := by
  obtain ⟨call, now⟩ := i
  have hone : 1 ≤ s.here.maxEvents := hmax.trans_eq h.limits.1.symm
  cases call with
  | acheck key =>
    obtain ⟨-, -, -, -, hframe⟩ := RedisSlidingWindowThrottle.zremrangebyscore_spec ((h.holds key).mono ha.1)
    exact h.fewer (SlidingWindowThrottle.within_live _ key now) (h.tracks.live ha.1 key) hframe
      (fun k => (h.trim ha.1 key k).1) (fun k => (h.trim ha.1 key k).2) fun _ => .refl _
  | arecord key token =>
    obtain ⟨hle, hsize, hnew, hplain⟩ := ha
    have hsame : s.shared.windowSeconds = s.shared.windowSeconds := rfl
    have hadd := holds_add hsame (fun k => (h.holds k).mono hle) (fun _ _ he => he)
      (h.fresh hnew hplain (.inr ⟨sixDecimals now, rfl⟩) key)
    rcases h.tracks.record (r := .once now) hle key token with ⟨-, htracks⟩ | ⟨-, -, hfull⟩
    · exact h.more (e := ⟨now, token, sixDecimals now ++ ":" ++ token⟩) hnew hplain (fun t ht => .inr ht)
        (.inr ⟨⟨sixDecimals now, rfl⟩, rfl⟩) (SlidingWindowThrottle.within_record _ key (.once now) token) htracks
        ⟨rfl, rfl⟩ (fun k => (hadd k).1) fun k => (hadd k).2
    · exact absurd hfull (not_le.mpr hsize)
  | aconsume key token =>
    obtain ⟨hle, hsize, hnew, hplain⟩ := ha
    obtain ⟨-, -, -, -, hframe⟩ := RedisSlidingWindowThrottle.zremrangebyscore_spec ((h.holds key).mono hle)
    have hwithin := SlidingWindowThrottle.within_aconsume s.here key (.once now) token
    have hshared := RedisSlidingWindowThrottle.aconsume_eq ((h.holds key).mono hle) token
    rw [h.counts key now, h.limits.2, ← h.limits.1] at hshared
    have hreturned : ∀ t ∈ token :: s.returned, t = token ∨ t ∈ s.returned := fun t ht => List.mem_cons.mp ht
    rcases h.tracks.aconsume (r := .once now) hle hone key token with
      ⟨hanswer, hfull, htracks⟩ | ⟨hroom, ⟨hanswer, htracks⟩ | ⟨-, -, hfull⟩⟩
    · -- Both refuse: the old members are gone, and nothing else is.
      have htrimmed : (s.shared.aconsume key now token).2 =
          s.shared.zremrangebyscore key now (now - s.shared.window) :=
        congrArg Prod.snd (hshared.trans (if_pos hfull))
      rw [exec_aconsume hanswer htrimmed]
      have hkept := h.fewer hwithin htracks hframe (fun k => (h.trim hle key k).1)
        (fun k => (h.trim hle key k).2) fun _ => .refl _
      exact hkept.draw hnew hplain hreturned
    · have hadded : (s.shared.aconsume key now token).2 =
          (s.shared.zremrangebyscore key now (now - s.shared.window)).zaddExpire key now now token
            (s.shared.windowSeconds + 1) :=
        congrArg Prod.snd (hshared.trans (if_neg (not_le.mpr hroom)))
      have hadd := holds_add hframe.2 (fun k => (h.trim hle key k).1) (fun k => (h.trim hle key k).2)
        (h.fresh hnew hplain (.inl rfl) key)
      rw [exec_aconsume hanswer hadded]
      exact h.more (e := ⟨now, token, token⟩) hnew hplain hreturned (.inl rfl) hwithin htracks hframe
        (fun k => (hadd k).1) fun k => (hadd k).2
    · exact absurd hfull (not_le.mpr hsize)
  | arelease key token =>
    obtain ⟨hle, -, hgiven⟩ := ha
    have hnodup : (((s.standing key).map SharedEvent.event).map ThrottleEvent.token).Nodup := by
      rw [List.map_map]
      exact h.nodup key
    have htracks := h.tracks.arelease hle key token hnodup
    have hwithin := SlidingWindowThrottle.within_arelease s.here key token now
    obtain ⟨hframe, hsets⟩ := h.released hle hgiven key
    refine h.fewer hwithin ?_ hframe (fun k => (hsets k).1) (fun k => (hsets k).2) fun k => ?_
    · intro k
      have hk := htracks k
      unfold SlidingWindowThrottle.withoutToken at hk
      dsimp only
      split_ifs at hk ⊢
      · rw [List.filter_map] at hk
        exact hk
      · exact hk
    · split_ifs
      · exact List.filter_sublist
      · exact .refl _
  | areset key =>
    refine h.fewer (SlidingWindowThrottle.within_areset _ key) ?_ ⟨rfl, rfl⟩ (fun k => ?_) (fun k e he => ?_)
      fun k => ?_
    · intro k
      have hk := ((h.tracks.areset key).mono ha.1) k
      unfold SlidingWindowThrottle.withoutKey at hk
      beta_reduce
      split_ifs at hk ⊢
      · exact hk
      · exact hk
    · unfold RedisSlidingWindowThrottle.areset
      rw [RedisSlidingWindowThrottle.get_delete]
      split_ifs
      · exact ⟨.nil _, by simp⟩
      · exact (h.holds k).mono ha.1
    · unfold RedisSlidingWindowThrottle.areset at he
      rw [RedisSlidingWindowThrottle.get_delete] at he
      split_ifs at he
      · exact absurd he List.not_mem_nil
      · exact he
    · split_ifs
      · exact List.nil_sublist _
      · exact .refl _

theorem inv (hmax : 1 ≤ maxEvents) (h : (machine maxEvents windowSeconds).Reach s) :
    s.Inv maxEvents windowSeconds := by
  refine h.invariant (fun s hs => ?_) fun s i _ hs ha => hs.exec hmax ha
  obtain ⟨hhere, ⟨name, hshared⟩, hstanding, hdrawn, hreturned⟩ := hs
  have hempty : ∀ key, s.shared.get key = none := by
    intro key
    rw [hshared]
    rfl
  refine ⟨by rw [hshared, hhere]; exact ⟨rfl, rfl⟩, by rw [hshared, hhere]; exact ⟨rfl, rfl⟩, fun key => ?_,
    fun key => ?_, fun key e he => ?_, fun key e he => ?_, fun key e he => ?_, fun key => ?_, ?_, ?_⟩
  · beta_reduce
    rw [hstanding key, hhere]
    exact .nil _
  · rw [hstanding key, hempty key]
    exact ⟨.nil _, by simp⟩
  · rw [hempty key] at he
    exact absurd he List.not_mem_nil
  · rw [hstanding key] at he
    contradiction
  · rw [hstanding key] at he
    contradiction
  · rw [hstanding key]
    exact List.nodup_nil
  · rw [hdrawn]
    simp
  · rw [hreturned]
    simp

end ThrottlePair

/-- The two throttles decide alike. On any trace of operations, each with one reading of the clock, either both
accept an operation or both refuse it, and after each they have the same number of live events for every key. -/
theorem throttles_agree {maxEvents : ℕ} {windowSeconds : ℤ} (hmax : 1 ≤ maxEvents) {s : ThrottlePair}
    (h : (ThrottlePair.machine maxEvents windowSeconds).Reach s) :
    (∀ i, ThrottlePair.allowed s i → (s.accepts i).1 = (s.accepts i).2) ∧
      ∀ key, s.liveHere key = s.liveShared key := by
  have hinv := ThrottlePair.inv hmax h
  refine ⟨fun i ha => hinv.decisions hmax ha, fun key => ?_⟩
  have hhere := (hinv.tracks key).live s.now le_rfl
  have hshared := (hinv.holds key).filter.covers.live s.now le_rfl
  have hset : s.shared.set? key s.now = (s.shared.get key).filter fun set => decide (s.now < set.expiresAt) := rfl
  unfold ThrottlePair.liveHere ThrottlePair.liveShared
  rw [hset, hhere, hshared, hinv.counts key s.now]
  rfl

/-- One reservation of a key, with a limit of one. -/
def ThrottlePair.spent : ThrottlePair :=
  .exec (.aconsume "key" "token", 0) ⟨.new 1 60, .like (.new 1 60) "login" .empty, 0, fun _ => [], [], []⟩

theorem ThrottlePair.spent_reach : (ThrottlePair.machine 1 60).Reach ThrottlePair.spent := by
  have hinit : (ThrottlePair.machine 1 60).init
      ⟨.new 1 60, .like (.new 1 60) "login" .empty, 0, fun _ => [], [], []⟩ :=
    ⟨rfl, ⟨"login", rfl⟩, fun _ => rfl, rfl, rfl⟩
  have hallowed : (ThrottlePair.machine 1 60).allowed
      ⟨.new 1 60, .like (.new 1 60) "login" .empty, 0, fun _ => [], [], []⟩ (.aconsume "key" "token", 0) :=
    ⟨le_refl (0 : ℚ), by decide, List.not_mem_nil, by decide⟩
  exact .step _ (.init hinit) hallowed

/-- Both have one event, so both refuse the next reservation. -/
theorem throttles_agree_spent : ThrottlePair.spent.liveHere "key" = 1 ∧ ThrottlePair.spent.liveShared "key" = 1 ∧
    ThrottlePair.spent.accepts (.aconsume "key" "other", 59) = (false, false) := by
  have hagree := throttles_agree le_rfl ThrottlePair.spent_reach
  have hlive : ThrottlePair.spent.liveHere "key" = 1 := by decide +kernel
  have hrefused : (ThrottlePair.spent.accepts (.aconsume "key" "other", 59)).1 = false := by decide +kernel
  have hallowed : ThrottlePair.allowed ThrottlePair.spent (.aconsume "key" "other", 59) :=
    ⟨by decide +kernel, by decide +kernel, by decide +kernel, by decide +kernel⟩
  exact ⟨hlive, (hagree.2 "key").symm.trans hlive,
    Prod.ext hrefused ((hagree.1 _ hallowed).symm.trans hrefused)⟩

end Dibs
