import Dibs.Config.Redaction
import Dibs.Models.Calendar
import Dibs.Service.Policy

/-!
# Settings from the environment

`WatchSettings.from_environment` of `backend/config.py`: fourteen settings, read one after another, each from the
text of a variable. A setting is read, or refused with a `ConfigurationError`, or its text makes `int` or
`urlparse` raise a `ValueError` that nothing catches. `settings_total_iff` says when the last does not happen, and
that otherwise the settings are in their ranges, so that `PollSchedule` can be built from them.
-/

namespace Dibs

/-! ## Texts and numbers -/

/-- `str.isspace`, of one character. -/
def isSpace (c : Char) : Bool := isWhiteSpace c || (decide (0x1c ≤ c.toNat) && decide (c.toNat ≤ 0x1f))

/-- `str.strip`. -/
def pyStrip (s : String) : String := String.ofList ((s.toList.dropWhile isSpace).rdropWhile isSpace)

/-- The digits of Unicode that are no decimal digits, such as superscripts, by their ranges. -/
def otherDigits : List (ℕ × ℕ) :=
  [(0xb2, 0xb3), (0xb9, 0xb9), (0x1369, 0x1371), (0x19da, 0x19da), (0x2070, 0x2070), (0x2074, 0x2079),
    (0x2080, 0x2089), (0x2460, 0x2468), (0x2474, 0x247c), (0x2488, 0x2490), (0x24ea, 0x24ea), (0x24f5, 0x24fd),
    (0x24ff, 0x24ff), (0x2776, 0x277e), (0x2780, 0x2788), (0x278a, 0x2792), (0x10a40, 0x10a43),
    (0x10e60, 0x10e68), (0x11052, 0x1105a), (0x1f100, 0x1f10a)]

/-- `str.isdigit`, of one character. -/
def isDigitChar (c : Char) : Bool :=
  (digitValue c).isSome || otherDigits.any fun range => decide (range.1 ≤ c.toNat) && decide (c.toNat ≤ range.2)

/-- `str.isdigit`. -/
def isDigitText (text : List Char) : Bool := text ≠ [] && text.all isDigitChar

/-- The text after a sign. -/
def afterSign : List Char → List Char
  | '-' :: rest | '+' :: rest => rest
  | text => text

/-- `int` of a text without white space at its ends, or `none` when it raises. -/
def intOf (text : List Char) : Option ℤ :=
  let digits := afterSign text
  if (digits.splitOn '_').any (· = []) || decide (4300 < (digits.filter (· ≠ '_')).length) then none
  else
    (decimalNumber (digits.filter (· ≠ '_'))).map fun n : ℕ => if text.head? = some '-' then -(n : ℤ) else (n : ℤ)

/-! ## Errors -/

/-- A `ConfigurationError` of `from_environment`, by its text. -/
inductive ConfigurationError
  | unknownTimezone (name : String)
  | invalidRedisUrl (url : String)
  | notInteger (name : String)
  | notPositive (name : String)
  | notBetween (name : String) (minimum maximum : ℕ)
  | jitterTooLarge
  | backoffTooSmall
deriving DecidableEq

/-- The text of an error. `repr` is Python's. -/
def ConfigurationError.message (repr : String → String) : ConfigurationError → String
  | .unknownTimezone name => "Unknown RESERVATION_TIMEZONE: " ++ name
  | .invalidRedisUrl url =>
    "Invalid REDIS_URL: " ++ repr url ++ ". Expected a redis://, rediss://, or unix:// URL."
  | .notInteger name => name ++ " must be an integer"
  | .notPositive name => name ++ " must be a positive integer"
  | .notBetween name minimum maximum => name ++ " must be between " ++ toString minimum ++ " and " ++ toString maximum
  | .jitterTooLarge => "WATCH_POLL_JITTER_SECONDS must be smaller than WATCH_POLL_INTERVAL_SECONDS"
  | .backoffTooSmall => "WATCH_PROVIDER_BACKOFF_MAX_SECONDS must be at least WATCH_POLL_INTERVAL_SECONDS"

/-- What a reading raises: a `ConfigurationError`, or a `ValueError` that nothing catches. -/
inductive SettingsError
  | configuration (e : ConfigurationError)
  | valueError
deriving DecidableEq

/-! ## The environment -/

/-- The variables that are set. -/
abbrev Environment := String → Option String

/-- What `ZoneInfo` makes of a name: of what it may raise, `load_settings` handles `ZoneInfoNotFoundError` and
`ValueError`, and nothing else is raised here. -/
inductive ZoneAnswer
  | found
  | notFound
  | valueError
deriving DecidableEq

/-- What `urlparse` takes from Unicode and from `ipaddress`. -/
structure UrlData where
  /-- `unicodedata.normalize("NFKC", …)`. -/
  nfkc : List Char → List Char
  /-- Whether a netloc with brackets has an address between them. -/
  bracketed : List Char → Bool

section Readings

variable (zone : String → ZoneAnswer) (data : UrlData) (env : Environment)

/-- The stripped text of a variable, empty when it is not set. -/
def textOf (name : String) : String := pyStrip ((env name).getD "")

/-- `_bounded_int`. -/
def boundedInt (name : String) (default : ℕ) (allowZero : Bool) : Except SettingsError ℕ :=
  let raw := textOf env name
  if raw = "" then .ok default
  else
    match intOf raw.toList with
    | none => .error (.configuration (.notInteger name))
    | some value =>
      if value < 0 ∨ value = 0 ∧ allowZero = false then .error (.configuration (.notPositive name))
      else .ok value.toNat

/-- A setting that `_bounded_count` reads: its variable, its default and its bounds. -/
structure CountSetting where
  name : String
  default : ℕ
  minimum : ℕ
  maximum : ℕ

/-- `_bounded_count`. -/
def boundedCount (setting : CountSetting) : Except SettingsError ℕ :=
  let raw := (textOf env setting.name).toList
  if raw = [] then .ok setting.default
  else if 12 < raw.length ∨ isDigitText raw = false then .error (.configuration (.notInteger setting.name))
  else
    match intOf raw with
    -- `int` does not read every digit.
    | none => .error .valueError
    | some value =>
      if value < setting.minimum then
        if setting.minimum ≤ 1 then .error (.configuration (.notPositive setting.name))
        else .error (.configuration (.notBetween setting.name setting.minimum setting.maximum))
      else if setting.maximum < value then
        .error (.configuration (.notBetween setting.name setting.minimum setting.maximum))
      else .ok value.toNat

/-- The scheme of a URL and what follows it. -/
def splitScheme (url : List Char) : List Char × List Char :=
  match url.takeWhile (· ≠ ':'), url.dropWhile (· ≠ ':') with
  | first :: rest, ':' :: after =>
    if first.isAlpha && rest.all (fun c => c.isAlphanum || ['+', '-', '.'].contains c) then
      ((first :: rest).map Char.toLower, after)
    else ([], url)
  | _, _ => ([], url)

/-- A URL as `urlsplit` takes it: without control characters and blanks in front, tabs and line ends. -/
def cleanUrl (url : String) : List Char :=
  (url.toList.dropWhile fun c => decide (c.toNat ≤ 0x20)).filter fun c => decide (c ∉ ['\t', '\r', '\n'])

/-- The netloc of what follows the scheme. -/
def netlocOf (rest : List Char) : List Char :=
  if rest.take 2 = ['/', '/'] then (rest.drop 2).takeWhile (!endsNetloc ·) else []

/-- A netloc that `urlsplit` does not accept: brackets without their counterparts or without an address between
them, or a character that stands for a delimiter. -/
def malformedNetloc (netloc : List Char) : Bool :=
  (netloc.contains '[' != netloc.contains ']') ||
    (netloc.contains '[' && netloc.contains ']' && !data.bracketed netloc) ||
    let plain := netloc.filter fun c => decide (c ∉ ['@', ':', '#', '?'])
    data.nfkc plain ≠ plain && (data.nfkc plain).any fun c => ['/', '?', '#', '@', ':'].contains c

/-- `urlparse(url).scheme`. -/
def urlScheme (url : String) : Except SettingsError (List Char) :=
  let (scheme, rest) := splitScheme (cleanUrl url)
  if malformedNetloc data (netlocOf rest) then .error .valueError else .ok scheme

/-- The name of the time zone. -/
def timezoneName : Except SettingsError String :=
  let name := pyStrip ((env "RESERVATION_TIMEZONE").getD "America/Toronto")
  if zone name = .found then .ok name else .error (.configuration (.unknownTimezone name))

/-- The address of Redis. -/
def redisUrl : Except SettingsError String :=
  let url := pyStrip ((env "REDIS_URL").getD "redis://localhost:6379/0")
  match urlScheme data url with
  | .error e => .error e
  | .ok scheme =>
    if ["redis".toList, "rediss".toList, "unix".toList].contains scheme then .ok url
    else .error (.configuration (.invalidRedisUrl url))

/-- The poll interval. -/
def pollInterval : Except SettingsError ℕ :=
  match boundedInt env "WATCH_POLL_INTERVAL_SECONDS" 180 false with
  | .error e => .error e
  | .ok interval =>
    if 15 ≤ interval ∧ interval ≤ 3600 then .ok interval
    else .error (.configuration (.notBetween "WATCH_POLL_INTERVAL_SECONDS" 15 3600))

/-- The jitter around it. -/
def pollJitter (interval : ℕ) : Except SettingsError ℕ :=
  match boundedInt env "WATCH_POLL_JITTER_SECONDS" 30 true with
  | .error e => .error e
  | .ok jitter => if interval ≤ jitter then .error (.configuration .jitterTooLarge) else .ok jitter

namespace CountSetting

def maxPollAttempts : CountSetting := ⟨"WATCH_MAX_POLL_ATTEMPTS", 25000, 1, 1000000⟩
def dispatchHorizon : CountSetting := ⟨"WATCH_DISPATCH_HORIZON_SECONDS", 300, 30, 3600⟩
def providerCallTimeout : CountSetting := ⟨"WATCH_PROVIDER_CALL_TIMEOUT_SECONDS", 45, 1, 45⟩
def providerBackoffMax : CountSetting := ⟨"WATCH_PROVIDER_BACKOFF_MAX_SECONDS", 3600, 1, 86400⟩
def mockSlotCapacity : CountSetting := ⟨"MOCK_SLOT_CAPACITY", 10000, 1, 100000⟩
def mockSlotIdleTtl : CountSetting := ⟨"MOCK_SLOT_IDLE_TTL_SECONDS", 3600, 60, 604800⟩
def mockBookingRetention : CountSetting := ⟨"MOCK_BOOKING_RETENTION_SECONDS", 604800, 604800, 31536000⟩
def terminalRetention : CountSetting := ⟨"WATCH_TERMINAL_RETENTION_SECONDS", 604800, 3600, 31536000⟩
def recoveryLeaderLease : CountSetting := ⟨"WATCH_RECOVERY_LEADER_LEASE_SECONDS", 30, 5, 300⟩
def recoverySweep : CountSetting := ⟨"WATCH_RECOVERY_SWEEP_SECONDS", 30, 5, 3600⟩

end CountSetting

/-- The ceiling of the backoff, which is not below the interval. -/
def backoffMax (interval : ℕ) : Except SettingsError ℕ :=
  match boundedCount env .providerBackoffMax with
  | .error e => .error e
  | .ok backoff => if backoff < interval then .error (.configuration .backoffTooSmall) else .ok backoff

/-- `WatchSettings` with all its fields. -/
structure WatchConfiguration where
  timezoneName : String
  redisUrl : String
  pollIntervalSeconds : ℕ
  pollJitterSeconds : ℕ
  maxPollAttempts : ℕ
  dispatchHorizonSeconds : ℕ
  providerCallTimeoutSeconds : ℕ
  providerBackoffMaxSeconds : ℕ
  mockSlotCapacity : ℕ
  mockSlotIdleTtlSeconds : ℕ
  mockBookingRetentionSeconds : ℕ
  terminalRetentionSeconds : ℕ
  recoveryLeaderLeaseSeconds : ℕ
  recoverySweepSeconds : ℕ
deriving DecidableEq

/-- `WatchSettings.from_environment`. -/
def fromEnvironment : Except SettingsError WatchConfiguration := do
  let timezoneName ← timezoneName zone env
  let redisUrl ← redisUrl data env
  let interval ← pollInterval env
  let jitter ← pollJitter env interval
  let attempts ← boundedCount env .maxPollAttempts
  let horizon ← boundedCount env .dispatchHorizon
  let providerTimeout ← boundedCount env .providerCallTimeout
  let backoff ← backoffMax env interval
  let capacity ← boundedCount env .mockSlotCapacity
  let idleTtl ← boundedCount env .mockSlotIdleTtl
  let retention ← boundedCount env .mockBookingRetention
  let terminal ← boundedCount env .terminalRetention
  let lease ← boundedCount env .recoveryLeaderLease
  let sweep ← boundedCount env .recoverySweep
  return ⟨timezoneName, redisUrl, interval, jitter, attempts, horizon, providerTimeout, backoff, capacity, idleTtl,
    retention, terminal, lease, sweep⟩

/-! ## What stumbles and what is refused -/

/-- The number that the text of a variable stands for, if `int` reads it. -/
def meant (name : String) (default : ℕ) : Option ℤ :=
  if textOf env name = "" then some default else intOf (textOf env name).toList

/-- The text is short and all digits, but not all decimal digits. -/
def CountSetting.Stumbles (setting : CountSetting) : Prop :=
  (textOf env setting.name).toList.length ≤ 12 ∧ isDigitText (textOf env setting.name).toList = true ∧
    ∃ c ∈ (textOf env setting.name).toList, digitValue c = none

/-- The text is too long or not all digits, or the number is out of its bounds. -/
def CountSetting.Refused (setting : CountSetting) : Prop :=
  (textOf env setting.name).toList ≠ [] ∧
    (12 < (textOf env setting.name).toList.length ∨ isDigitText (textOf env setting.name).toList = false ∨
      ∃ n, intOf (textOf env setting.name).toList = some n ∧ ¬ (setting.minimum ≤ n ∧ n ≤ setting.maximum))

/-- The interval that is asked for, which is in its bounds. -/
def IntervalAsked (n : ℤ) : Prop := meant env "WATCH_POLL_INTERVAL_SECONDS" 180 = some n ∧ 15 ≤ n ∧ n ≤ 3600

/-- A jitter below the interval is asked for. -/
def JitterAsked (interval : ℤ) : Prop :=
  ∃ m, meant env "WATCH_POLL_JITTER_SECONDS" 30 = some m ∧ 0 ≤ m ∧ m < interval

/-- A ceiling of the backoff below the interval is asked for. -/
def BackoffBelow (interval : ℤ) : Prop :=
  ∃ m, meant env "WATCH_PROVIDER_BACKOFF_MAX_SECONDS" 3600 = some m ∧ m < interval

/-- The address of Redis that is asked for. -/
def redisAsked : String := pyStrip ((env "REDIS_URL").getD "redis://localhost:6379/0")

/-- The settings in the order in which they are read. -/
inductive Setting
  | timezoneName
  | redisUrl
  | pollInterval
  | pollJitter
  | maxPollAttempts
  | dispatchHorizon
  | providerCallTimeout
  | providerBackoffMax
  | mockSlotCapacity
  | mockSlotIdleTtl
  | mockBookingRetention
  | terminalRetention
  | recoveryLeaderLease
  | recoverySweep
deriving DecidableEq

namespace Setting

def order : List Setting :=
  [timezoneName, redisUrl, pollInterval, pollJitter, maxPollAttempts, dispatchHorizon, providerCallTimeout,
    providerBackoffMax, mockSlotCapacity, mockSlotIdleTtl, mockBookingRetention, terminalRetention,
    recoveryLeaderLease, recoverySweep]

/-- The text of a setting makes `urlparse` or `int` raise. -/
def Stumbles : Setting → Prop
  | timezoneName | pollInterval | pollJitter => False
  | redisUrl => malformedNetloc data (netlocOf (splitScheme (cleanUrl (redisAsked env))).2) = true
  | maxPollAttempts => CountSetting.maxPollAttempts.Stumbles env
  | dispatchHorizon => CountSetting.dispatchHorizon.Stumbles env
  | providerCallTimeout => CountSetting.providerCallTimeout.Stumbles env
  | providerBackoffMax => CountSetting.providerBackoffMax.Stumbles env
  | mockSlotCapacity => CountSetting.mockSlotCapacity.Stumbles env
  | mockSlotIdleTtl => CountSetting.mockSlotIdleTtl.Stumbles env
  | mockBookingRetention => CountSetting.mockBookingRetention.Stumbles env
  | terminalRetention => CountSetting.terminalRetention.Stumbles env
  | recoveryLeaderLease => CountSetting.recoveryLeaderLease.Stumbles env
  | recoverySweep => CountSetting.recoverySweep.Stumbles env

/-- The text of a setting is refused. -/
def Refused : Setting → Prop
  | timezoneName => zone (pyStrip ((env "RESERVATION_TIMEZONE").getD "America/Toronto")) ≠ .found
  | redisUrl => malformedNetloc data (netlocOf (splitScheme (cleanUrl (redisAsked env))).2) = false ∧
      (splitScheme (cleanUrl (redisAsked env))).1 ∉ ["redis".toList, "rediss".toList, "unix".toList]
  | pollInterval => ¬ ∃ n, IntervalAsked env n
  | pollJitter => ¬ ∃ n, IntervalAsked env n ∧ JitterAsked env n
  | maxPollAttempts => CountSetting.maxPollAttempts.Refused env
  | dispatchHorizon => CountSetting.dispatchHorizon.Refused env
  | providerCallTimeout => CountSetting.providerCallTimeout.Refused env
  | providerBackoffMax => CountSetting.providerBackoffMax.Refused env ∨
      ¬ CountSetting.providerBackoffMax.Stumbles env ∧ ∃ n, IntervalAsked env n ∧ BackoffBelow env n
  | mockSlotCapacity => CountSetting.mockSlotCapacity.Refused env
  | mockSlotIdleTtl => CountSetting.mockSlotIdleTtl.Refused env
  | mockBookingRetention => CountSetting.mockBookingRetention.Refused env
  | terminalRetention => CountSetting.terminalRetention.Refused env
  | recoveryLeaderLease => CountSetting.recoveryLeaderLease.Refused env
  | recoverySweep => CountSetting.recoverySweep.Refused env

/-- What comes of a setting by itself. The jitter and the backoff are compared with the interval, if there is
one. -/
def reading : Setting → Except SettingsError Unit
  | timezoneName => (Dibs.timezoneName zone env).map fun _ => ()
  | redisUrl => (Dibs.redisUrl data env).map fun _ => ()
  | pollInterval => (Dibs.pollInterval env).map fun _ => ()
  | pollJitter => (Dibs.pollInterval env >>= Dibs.pollJitter env).map fun _ => ()
  | maxPollAttempts => (boundedCount env .maxPollAttempts).map fun _ => ()
  | dispatchHorizon => (boundedCount env .dispatchHorizon).map fun _ => ()
  | providerCallTimeout => (boundedCount env .providerCallTimeout).map fun _ => ()
  | providerBackoffMax =>
    match Dibs.pollInterval env with
    | .error _ => (boundedCount env .providerBackoffMax).map fun _ => ()
    | .ok interval => (backoffMax env interval).map fun _ => ()
  | mockSlotCapacity => (boundedCount env .mockSlotCapacity).map fun _ => ()
  | mockSlotIdleTtl => (boundedCount env .mockSlotIdleTtl).map fun _ => ()
  | mockBookingRetention => (boundedCount env .mockBookingRetention).map fun _ => ()
  | terminalRetention => (boundedCount env .terminalRetention).map fun _ => ()
  | recoveryLeaderLease => (boundedCount env .recoveryLeaderLease).map fun _ => ()
  | recoverySweep => (boundedCount env .recoverySweep).map fun _ => ()

end Setting

/-- Before every text that makes `urlparse` or `int` raise, a setting is refused. -/
def Readable : Prop :=
  ∀ before k after, Setting.order = before ++ k :: after → k.Stumbles data env →
    ∃ j ∈ before, j.Refused zone data env

/-! ## One setting -/

variable {zone data env}

/-- A number of decimal digits can be read unless one of them is none. -/
theorem decimalNumber_eq_none {digits : List Char} :
    decimalNumber digits = none ↔ ∃ c ∈ digits, digitValue c = none := by
  have key : ∀ (digits : List Char) (n : ℕ), digits.foldlM (fun n c => (digitValue c).map (10 * n + ·)) n = none ↔
      ∃ c ∈ digits, digitValue c = none := by
    intro digits
    induction digits with
    | nil => simp
    | cons c digits ih =>
      intro n
      rw [List.foldlM_cons]
      cases hc : digitValue c with
      | none => simp [hc]
      | some v =>
        simp only [List.mem_cons, exists_eq_or_imp, hc]
        rw [Option.map_some, Option.bind_eq_bind, Option.bind_some, ih]
        simp
  exact key digits 0

/-- `int` raises on a short text of digits just when one of them is not decimal. -/
theorem intOf_eq_none {text : List Char} (hdigits : isDigitText text = true) (hlength : text.length ≤ 12) :
    intOf text = none ↔ ∃ c ∈ text, digitValue c = none := by
  unfold isDigitText at hdigits
  obtain ⟨hne, hall⟩ : text ≠ [] ∧ ∀ c ∈ text, isDigitChar c = true := by simpa using hdigits
  have hplain : ∀ c ∈ text, c ≠ '_' ∧ c ≠ '-' ∧ c ≠ '+' := by
    intro c hc
    have hdigit := hall c hc
    refine ⟨?_, ?_, ?_⟩
    · rintro rfl
      exact absurd hdigit (by decide)
    · rintro rfl
      exact absurd hdigit (by decide)
    · rintro rfl
      exact absurd hdigit (by decide)
  have hunsigned : afterSign text = text := by
    unfold afterSign
    split
    · exact absurd rfl (hplain '-' List.mem_cons_self).2.1
    · exact absurd rfl (hplain '+' List.mem_cons_self).2.2
    · rfl
  have hsplit : text.splitOn '_' = [text] :=
    List.splitOnP_eq_singleton fun c hc => by simpa using (hplain c hc).1
  have hfilter : text.filter (· ≠ '_') = text :=
    List.filter_eq_self.mpr fun c hc => by simpa using (hplain c hc).1
  have hshort : ¬ 4300 < text.length := by omega
  unfold intOf
  dsimp only
  rw [hunsigned, hsplit, hfilter, if_neg (by simp [hne, hshort]), Option.map_eq_none_iff, decimalNumber_eq_none]

/-- A reading gives a value of a kind, or it is refused, or its text stumbles. -/
def Comes {α : Type} (r : Except SettingsError α) (P : α → Prop) (refused stumbles : Prop) : Prop :=
  (∃ a, r = .ok a ∧ P a) ∧ ¬ refused ∧ ¬ stumbles ∨
    (∃ e, r = .error (.configuration e)) ∧ refused ∧ ¬ stumbles ∨
    r = .error .valueError ∧ ¬ refused ∧ stumbles

namespace Comes

variable {α : Type} {r : Except SettingsError α} {P : α → Prop} {refused stumbles : Prop}

/-- What is read is of the kind. -/
theorem of_ok (h : Comes r P refused stumbles) {a : α} (hr : r = .ok a) : P a := by
  rcases h with ⟨⟨b, hb, hP⟩, -⟩ | ⟨⟨e, he⟩, -⟩ | ⟨hraises, -⟩
  · rw [hr] at hb
    rw [Except.ok.inj hb]
    exact hP
  · rw [hr] at he
    contradiction
  · rw [hr] at hraises
    contradiction

/-- What is read is forgotten. -/
theorem forget (h : Comes r P refused stumbles) : Comes (r.map fun _ => ()) (fun _ => True) refused stumbles := by
  rcases h with ⟨⟨a, rfl, -⟩, h⟩ | ⟨⟨e, rfl⟩, h⟩ | ⟨rfl, h⟩
  · exact .inl ⟨⟨(), rfl, trivial⟩, h⟩
  · exact .inr (.inl ⟨⟨e, rfl⟩, h⟩)
  · exact .inr (.inr ⟨rfl, h⟩)

theorem raises_iff (h : Comes r P refused stumbles) : r = .error .valueError ↔ stumbles := by
  rcases h with ⟨⟨a, rfl, -⟩, -, hs⟩ | ⟨⟨e, rfl⟩, -, hs⟩ | ⟨rfl, -, hs⟩
  · simp [hs]
  · simp [hs]
  · simp [hs]

theorem refused_iff (h : Comes r P refused stumbles) : (∃ e, r = .error (.configuration e)) ↔ refused := by
  rcases h with ⟨⟨a, rfl, -⟩, hr, -⟩ | ⟨⟨e, rfl⟩, hr, -⟩ | ⟨rfl, hr, -⟩
  · simp [hr]
  · simp [hr]
  · simp [hr]

end Comes

variable (env)

/-- `_bounded_count` reads a number in the bounds, refuses the text, or stumbles over it. -/
theorem boundedCount_comes (setting : CountSetting)
    (hdefault : setting.minimum ≤ setting.default ∧ setting.default ≤ setting.maximum) :
    Comes (boundedCount env setting)
      (fun n => (setting.minimum ≤ n ∧ n ≤ setting.maximum) ∧ meant env setting.name setting.default = some (n : ℤ))
      (setting.Refused env) (setting.Stumbles env) := by
  unfold Comes CountSetting.Refused CountSetting.Stumbles boundedCount meant
  have htext : textOf env setting.name = "" ↔ (textOf env setting.name).toList = [] := String.toList_eq_nil_iff.symm
  simp only [htext]
  generalize (textOf env setting.name).toList = raw
  by_cases hempty : raw = []
  · refine .inl ⟨⟨setting.default, by rw [if_pos hempty], hdefault, by rw [if_pos hempty]⟩, fun h => h.1 hempty, ?_⟩
    rintro ⟨-, -, c, hc, -⟩
    rw [hempty] at hc
    contradiction
  rw [if_neg hempty, if_neg hempty]
  by_cases hform : 12 < raw.length ∨ isDigitText raw = false
  · rw [if_pos hform]
    refine .inr (.inl ⟨⟨_, rfl⟩, ⟨hempty, hform.imp_right .inl⟩, ?_⟩)
    rintro ⟨hlength, hdigits, -⟩
    rcases hform with hlong | hother
    · omega
    · rw [hdigits] at hother
      contradiction
  rw [if_neg hform]
  obtain ⟨hlength, hdigits⟩ : raw.length ≤ 12 ∧ isDigitText raw = true := by simpa using hform
  have hnone := intOf_eq_none hdigits hlength
  cases hint : intOf raw with
  | none =>
    refine .inr (.inr ⟨rfl, ?_, hlength, hdigits, hnone.mp hint⟩)
    rintro ⟨-, hlong | hother | ⟨n, hn, -⟩⟩
    · exact hform (.inl hlong)
    · exact hform (.inr hother)
    · contradiction
  | some value =>
    have hstays : ¬ (raw.length ≤ 12 ∧ isDigitText raw = true ∧ ∃ c ∈ raw, digitValue c = none) := by
      rintro ⟨-, -, hc⟩
      rw [hnone.mpr hc] at hint
      contradiction
    dsimp only
    by_cases hbounds : (setting.minimum : ℤ) ≤ value ∧ value ≤ setting.maximum
    · rw [if_neg (by omega), if_neg (by omega)]
      refine .inl ⟨⟨value.toNat, rfl, ⟨by omega, by omega⟩, by rw [Int.toNat_of_nonneg (by omega)]⟩, ?_, hstays⟩
      rintro ⟨-, hlong | hother | ⟨n, hn, hout⟩⟩
      · exact hform (.inl hlong)
      · exact hform (.inr hother)
      · rw [← Option.some.inj hn] at hout
        exact hout hbounds
    · refine .inr (.inl ⟨?_, ⟨hempty, .inr (.inr ⟨value, rfl, hbounds⟩)⟩, hstays⟩)
      split_ifs with hlow hone hhigh
      · exact ⟨_, rfl⟩
      · exact ⟨_, rfl⟩
      · exact ⟨_, rfl⟩
      · omega

/-- `_bounded_int` reads the number the text stands for if it is not negative, and not zero unless this is
allowed. -/
theorem boundedInt_comes (name : String) {default : ℕ} (hdefault : 1 ≤ default) (allowZero : Bool) :
    Comes (boundedInt env name default allowZero)
      (fun n => meant env name default = some (n : ℤ) ∧ (n = 0 → allowZero = true))
      (¬ ∃ n, meant env name default = some n ∧ 0 ≤ n ∧ (n = 0 → allowZero = true)) False := by
  unfold Comes boundedInt meant
  dsimp only
  by_cases hempty : textOf env name = ""
  · rw [if_pos hempty, if_pos hempty]
    exact .inl ⟨⟨default, rfl, rfl, by omega⟩, not_not.mpr ⟨default, rfl, by omega, by omega⟩, id⟩
  rw [if_neg hempty, if_neg hempty]
  cases intOf (textOf env name).toList with
  | none => exact .inr (.inl ⟨⟨_, rfl⟩, by simp, id⟩)
  | some value =>
    dsimp only
    by_cases hrefused : value < 0 ∨ value = 0 ∧ allowZero = false
    · rw [if_pos hrefused]
      refine .inr (.inl ⟨⟨_, rfl⟩, ?_, id⟩)
      rintro ⟨n, hn, hnonneg, hzero⟩
      rw [← Option.some.inj hn] at hnonneg hzero
      rcases hrefused with hneg | ⟨h0, hallow⟩
      · omega
      · rw [hzero h0] at hallow
        contradiction
    · rw [if_neg hrefused]
      have hnonneg : 0 ≤ value := by omega
      have hzero : value = 0 → allowZero = true := fun h0 => by
        by_contra hallow
        exact hrefused (.inr ⟨h0, by simpa using hallow⟩)
      refine .inl ⟨⟨value.toNat, rfl, ?_, fun h0 => hzero (by omega)⟩,
        not_not.mpr ⟨value, rfl, hnonneg, hzero⟩, id⟩
      rw [Int.toNat_of_nonneg hnonneg]

/-- The interval that is asked for is read if it is in its bounds. -/
theorem pollInterval_comes :
    Comes (pollInterval env) (fun n => IntervalAsked env n) (¬ ∃ n, IntervalAsked env n) False := by
  unfold pollInterval IntervalAsked
  rcases boundedInt_comes env "WATCH_POLL_INTERVAL_SECONDS" (show 1 ≤ 180 by decide) false with
    ⟨⟨n, hn, hmeant, -⟩, -⟩ | ⟨⟨e, he⟩, hnone, -⟩ | ⟨-, -, hfalse⟩
  · rw [hn]
    dsimp only
    by_cases hbounds : 15 ≤ n ∧ n ≤ 3600
    · rw [if_pos hbounds]
      have hasked : meant env "WATCH_POLL_INTERVAL_SECONDS" 180 = some (n : ℤ) ∧ 15 ≤ (n : ℤ) ∧ (n : ℤ) ≤ 3600 :=
        ⟨hmeant, by omega, by omega⟩
      exact .inl ⟨⟨n, rfl, hasked⟩, not_not.mpr ⟨n, hasked⟩, id⟩
    · rw [if_neg hbounds]
      refine .inr (.inl ⟨⟨_, rfl⟩, ?_, id⟩)
      rintro ⟨m, hm, hlow, hhigh⟩
      obtain rfl := Option.some.inj (hmeant.symm.trans hm)
      omega
  · rw [he]
    refine .inr (.inl ⟨⟨e, rfl⟩, ?_, id⟩)
    rintro ⟨m, hm, hlow, hhigh⟩
    exact hnone ⟨m, hm, by omega, by omega⟩
  · exact hfalse.elim

/-- The jitter that is asked for is read if it is below the interval. -/
theorem pollJitter_comes (interval : ℕ) :
    Comes (pollJitter env interval) (· < interval) (¬ JitterAsked env interval) False := by
  unfold pollJitter JitterAsked
  rcases boundedInt_comes env "WATCH_POLL_JITTER_SECONDS" (show 1 ≤ 30 by decide) true with
    ⟨⟨n, hn, hmeant, -⟩, -⟩ | ⟨⟨e, he⟩, hnone, -⟩ | ⟨-, -, hfalse⟩
  · rw [hn]
    dsimp only
    by_cases hlarge : interval ≤ n
    · rw [if_pos hlarge]
      refine .inr (.inl ⟨⟨_, rfl⟩, ?_, id⟩)
      rintro ⟨m, hm, -, hbelow⟩
      obtain rfl := Option.some.inj (hmeant.symm.trans hm)
      omega
    · rw [if_neg hlarge]
      exact .inl ⟨⟨n, rfl, not_le.mp hlarge⟩, not_not.mpr ⟨n, hmeant, by omega, by omega⟩, id⟩
  · rw [he]
    refine .inr (.inl ⟨⟨e, rfl⟩, ?_, id⟩)
    rintro ⟨m, hm, hlow, -⟩
    exact hnone ⟨m, hm, hlow, fun _ => rfl⟩
  · exact hfalse.elim

/-- The ceiling of the backoff is read if it is not below the interval. -/
theorem backoffMax_comes (interval : ℕ) :
    Comes (backoffMax env interval) (fun n => (1 ≤ n ∧ n ≤ 86400) ∧ interval ≤ n)
      (CountSetting.providerBackoffMax.Refused env ∨
        ¬ CountSetting.providerBackoffMax.Stumbles env ∧ BackoffBelow env interval)
      (CountSetting.providerBackoffMax.Stumbles env) := by
  unfold backoffMax BackoffBelow
  rcases boundedCount_comes env .providerBackoffMax (by decide) with
    ⟨⟨n, hn, hbounds, hmeant⟩, hr, hs⟩ | ⟨⟨e, he⟩, hr, hs⟩ | ⟨hraises, hr, hs⟩
  · rw [hn]
    dsimp only
    by_cases hsmall : n < interval
    · rw [if_pos hsmall]
      exact .inr (.inl ⟨⟨_, rfl⟩, .inr ⟨hs, n, hmeant, by omega⟩, hs⟩)
    · rw [if_neg hsmall]
      refine .inl ⟨⟨n, rfl, hbounds, not_lt.mp hsmall⟩, ?_, hs⟩
      rintro (hrefused | ⟨-, m, hm, hbelow⟩)
      · exact hr hrefused
      · obtain rfl := Option.some.inj (hmeant.symm.trans hm)
        omega
  · rw [he]
    exact .inr (.inl ⟨⟨e, rfl⟩, .inl hr, hs⟩)
  · rw [hraises]
    exact .inr (.inr ⟨rfl, fun h => h.elim hr fun h => h.1 hs, hs⟩)

/-- The address of Redis is read or refused, or it is malformed. -/
theorem redisUrl_comes : Comes (redisUrl data env) (fun _ => True)
    (malformedNetloc data (netlocOf (splitScheme (cleanUrl (redisAsked env))).2) = false ∧
      (splitScheme (cleanUrl (redisAsked env))).1 ∉ ["redis".toList, "rediss".toList, "unix".toList])
    (malformedNetloc data (netlocOf (splitScheme (cleanUrl (redisAsked env))).2) = true) := by
  unfold Comes redisUrl urlScheme redisAsked
  dsimp only
  generalize pyStrip ((env "REDIS_URL").getD "redis://localhost:6379/0") = url
  by_cases hmalformed : malformedNetloc data (netlocOf (splitScheme (cleanUrl url)).2) = true
  · rw [if_pos hmalformed]
    exact .inr (.inr ⟨rfl, fun h => by rw [hmalformed] at h; exact absurd h.1 (by decide), hmalformed⟩)
  · rw [if_neg hmalformed]
    dsimp only
    by_cases hscheme : (splitScheme (cleanUrl url)).1 ∈ ["redis".toList, "rediss".toList, "unix".toList]
    · rw [if_pos (List.contains_iff_mem.mpr hscheme)]
      exact .inl ⟨⟨_, rfl, trivial⟩, fun h => h.2 hscheme, hmalformed⟩
    · rw [if_neg (fun h => hscheme (List.contains_iff_mem.mp h))]
      exact .inr (.inl ⟨⟨_, rfl⟩, ⟨by simpa using hmalformed, hscheme⟩, hmalformed⟩)

/-- The time zone is found or refused. -/
theorem timezoneName_comes : Comes (timezoneName zone env) (fun name => zone name = .found)
    (zone (pyStrip ((env "RESERVATION_TIMEZONE").getD "America/Toronto")) ≠ .found) False := by
  unfold Comes timezoneName
  dsimp only
  generalize pyStrip ((env "RESERVATION_TIMEZONE").getD "America/Toronto") = name
  by_cases hfound : zone name = .found
  · rw [if_pos hfound]
    exact .inl ⟨⟨name, rfl, hfound⟩, not_not.mpr hfound, id⟩
  · rw [if_neg hfound]
    exact .inr (.inl ⟨⟨_, rfl⟩, hfound, id⟩)

variable {env}

/-- The interval that is asked for is one. -/
theorem IntervalAsked.unique {n m : ℤ} (hn : IntervalAsked env n) (hm : IntervalAsked env m) : n = m :=
  Option.some.inj (hn.1.symm.trans hm.1)

/-- Every setting is read, or refused, or its text stumbles. -/
theorem Setting.reading_comes (k : Setting) :
    Comes (k.reading zone data env) (fun _ => True) (k.Refused zone data env) (k.Stumbles data env) := by
  unfold reading Refused Stumbles
  cases k with
  | timezoneName =>
    dsimp only
    exact (timezoneName_comes env).forget
  | redisUrl =>
    dsimp only
    exact (redisUrl_comes env).forget
  | pollInterval =>
    dsimp only
    exact (pollInterval_comes env).forget
  | pollJitter =>
    dsimp only
    refine Comes.forget (P := fun _ => True) ?_
    rcases pollInterval_comes env with ⟨⟨n, hn, hasked⟩, -⟩ | ⟨⟨e, he⟩, hnone, -⟩ | ⟨-, -, hfalse⟩
    · rw [hn]
      have hjitter : (¬ ∃ m, IntervalAsked env m ∧ JitterAsked env m) ↔ ¬ JitterAsked env n := by
        refine not_congr ⟨?_, fun h => ⟨n, hasked, h⟩⟩
        rintro ⟨m, hm, hj⟩
        rwa [hasked.unique hm]
      rw [hjitter]
      rcases pollJitter_comes env n with ⟨⟨m, hm, -⟩, h⟩ | h | h
      · exact .inl ⟨⟨m, hm, trivial⟩, h⟩
      · exact .inr (.inl h)
      · exact .inr (.inr h)
    · rw [he]
      exact .inr (.inl ⟨⟨e, rfl⟩, fun ⟨m, hm, _⟩ => hnone ⟨m, hm⟩, id⟩)
    · exact hfalse.elim
  | providerBackoffMax =>
    dsimp only
    rcases pollInterval_comes env with ⟨⟨n, hn, hasked⟩, -⟩ | ⟨⟨e, he⟩, hnone, -⟩ | ⟨-, -, hfalse⟩
    · rw [hn]
      dsimp only
      have hbelow : (∃ m, IntervalAsked env m ∧ BackoffBelow env m) ↔ BackoffBelow env n := by
        refine ⟨?_, fun h => ⟨n, hasked, h⟩⟩
        rintro ⟨m, hm, hb⟩
        rwa [hasked.unique hm]
      rw [hbelow]
      exact (backoffMax_comes env n).forget
    · rw [he]
      dsimp only
      have hbelow : ¬ ∃ m, IntervalAsked env m ∧ BackoffBelow env m := fun ⟨m, hm, _⟩ => hnone ⟨m, hm⟩
      rw [eq_false hbelow, and_false, or_false]
      exact (boundedCount_comes env .providerBackoffMax (by decide)).forget
    · exact hfalse.elim
  | maxPollAttempts => exact (boundedCount_comes env .maxPollAttempts (by decide)).forget
  | dispatchHorizon => exact (boundedCount_comes env .dispatchHorizon (by decide)).forget
  | providerCallTimeout => exact (boundedCount_comes env .providerCallTimeout (by decide)).forget
  | mockSlotCapacity => exact (boundedCount_comes env .mockSlotCapacity (by decide)).forget
  | mockSlotIdleTtl => exact (boundedCount_comes env .mockSlotIdleTtl (by decide)).forget
  | mockBookingRetention => exact (boundedCount_comes env .mockBookingRetention (by decide)).forget
  | terminalRetention => exact (boundedCount_comes env .terminalRetention (by decide)).forget
  | recoveryLeaderLease => exact (boundedCount_comes env .recoveryLeaderLease (by decide)).forget
  | recoverySweep => exact (boundedCount_comes env .recoverySweep (by decide)).forget

/-! ## All settings -/

/-- One reading after another, up to the first that does not succeed. -/
def readAll {α : Type} (f : α → Except SettingsError Unit) : List α → Except SettingsError Unit
  | [] => .ok ()
  | x :: l => f x >>= fun _ => readAll f l

/-- It raises a `ValueError` unless a reading before one that does is refused. -/
theorem readAll_ne_valueError {α : Type} {f : α → Except SettingsError Unit} (l : List α) :
    readAll f l ≠ .error .valueError ↔ ∀ before k after, l = before ++ k :: after → f k = .error .valueError →
      ∃ j ∈ before, ∃ e, f j = .error (.configuration e) := by
  induction l with
  | nil => simp [readAll]
  | cons x l ih =>
    unfold readAll
    cases hx : f x with
    | ok u =>
      refine ih.trans ⟨fun h before k after hsplit hk => ?_, fun h before k after hsplit hk => ?_⟩
      · cases before with
        | nil =>
          obtain ⟨rfl, -⟩ := List.cons.inj hsplit
          rw [hx] at hk
          contradiction
        | cons y before =>
          obtain ⟨rfl, hrest⟩ := List.cons.inj hsplit
          obtain ⟨j, hj, hrefused⟩ := h before k after hrest hk
          exact ⟨j, List.mem_cons_of_mem _ hj, hrefused⟩
      · obtain ⟨j, hj, e, he⟩ := h (x :: before) k after (by rw [hsplit]; rfl) hk
        rcases List.mem_cons.mp hj with rfl | hj
        · rw [hx] at he
          contradiction
        · exact ⟨j, hj, e, he⟩
    | error e =>
      cases e with
      | configuration e =>
        refine ⟨fun _ before k after hsplit hk => ?_, fun _ heq => ?_⟩
        · cases before with
          | nil =>
            obtain ⟨rfl, -⟩ := List.cons.inj hsplit
            rw [hx] at hk
            contradiction
          | cons y before =>
            obtain ⟨rfl, -⟩ := List.cons.inj hsplit
            exact ⟨x, List.mem_cons_self, e, hx⟩
        · exact absurd heq (by simp [bind, Except.bind])
      | valueError =>
        refine ⟨fun h => absurd rfl h, fun h => ?_⟩
        obtain ⟨j, hj, -⟩ := h [] x l rfl hx
        contradiction

/-- What is read of several settings, one after another, with what is read forgotten. -/
theorem forget_bind {α β : Type} {x : Except SettingsError α} {f : α → Except SettingsError β}
    {r : Except SettingsError Unit} {rest : Except SettingsError Unit} (hx : x.map (fun _ => ()) = r)
    (hf : ∀ a, x = .ok a → (f a).map (fun _ => ()) = rest) :
    (x >>= f).map (fun _ => ()) = r >>= fun _ => rest := by
  subst hx
  cases x with
  | error e => rfl
  | ok a => exact hf a rfl

/-- All settings are read in their order. -/
theorem fromEnvironment_readAll :
    (fromEnvironment zone data env).map (fun _ => ()) = 
      readAll (Setting.reading zone data env) Setting.order := by
  unfold fromEnvironment Setting.order
  refine forget_bind rfl fun name _ => ?_
  refine forget_bind rfl fun url _ => ?_
  refine forget_bind rfl fun interval hinterval => ?_
  refine forget_bind ?_ fun jitter _ => ?_
  · unfold Setting.reading
    rw [hinterval]
    rfl
  refine forget_bind rfl fun attempts _ => ?_
  refine forget_bind rfl fun horizon _ => ?_
  refine forget_bind rfl fun providerTimeout _ => ?_
  refine forget_bind ?_ fun backoff _ => ?_
  · unfold Setting.reading
    rw [hinterval]
  refine forget_bind rfl fun capacity _ => ?_
  refine forget_bind rfl fun idleTtl _ => ?_
  refine forget_bind rfl fun retention _ => ?_
  refine forget_bind rfl fun terminal _ => ?_
  refine forget_bind rfl fun lease _ => ?_
  refine forget_bind rfl fun sweep _ => ?_
  rfl

/-! ## What is returned -/

/-- The settings are in their ranges, and in the relations between them. -/
structure WatchConfiguration.InRange (s : WatchConfiguration) : Prop where
  interval : 15 ≤ s.pollIntervalSeconds ∧ s.pollIntervalSeconds ≤ 3600
  jitter : s.pollJitterSeconds < s.pollIntervalSeconds
  attempts : 1 ≤ s.maxPollAttempts ∧ s.maxPollAttempts ≤ 1000000
  horizon : 30 ≤ s.dispatchHorizonSeconds ∧ s.dispatchHorizonSeconds ≤ 3600
  providerTimeout : 1 ≤ s.providerCallTimeoutSeconds ∧ s.providerCallTimeoutSeconds ≤ 45
  backoff : 1 ≤ s.providerBackoffMaxSeconds ∧ s.providerBackoffMaxSeconds ≤ 86400
  interval_le_backoff : s.pollIntervalSeconds ≤ s.providerBackoffMaxSeconds
  capacity : 1 ≤ s.mockSlotCapacity ∧ s.mockSlotCapacity ≤ 100000
  idleTtl : 60 ≤ s.mockSlotIdleTtlSeconds ∧ s.mockSlotIdleTtlSeconds ≤ 604800
  retention : 604800 ≤ s.mockBookingRetentionSeconds ∧ s.mockBookingRetentionSeconds ≤ 31536000
  terminal : 3600 ≤ s.terminalRetentionSeconds ∧ s.terminalRetentionSeconds ≤ 31536000
  lease : 5 ≤ s.recoveryLeaderLeaseSeconds ∧ s.recoveryLeaderLeaseSeconds ≤ 300
  sweep : 5 ≤ s.recoverySweepSeconds ∧ s.recoverySweepSeconds ≤ 3600

/-- What polling takes from settings in their ranges. -/
def WatchConfiguration.polling (s : WatchConfiguration) (h : s.InRange) : WatchSettings where
  pollIntervalSeconds := s.pollIntervalSeconds
  pollJitterSeconds := s.pollJitterSeconds
  maxPollAttempts := s.maxPollAttempts
  providerBackoffMaxSeconds := s.providerBackoffMaxSeconds
  interval_bounds := h.interval
  jitter_lt := h.jitter
  attempts_bounds := h.attempts
  backoff_bounds := h.backoff
  interval_le_backoff := h.interval_le_backoff

/-- What `PollSchedule.__post_init__` raises. -/
inductive PollScheduleError
  | intervalNotPositive
  | jitterNegative
  | jitterTooLarge

/-- `PollSchedule.__post_init__`. -/
def PollSchedule.build (intervalSeconds jitterSeconds : ℚ) : Except PollScheduleError PollSchedule :=
  if hinterval : intervalSeconds ≤ 0 then .error .intervalNotPositive
  else if hjitter : jitterSeconds < 0 then .error .jitterNegative
  else if hlarge : intervalSeconds ≤ jitterSeconds then .error .jitterTooLarge
  else .ok ⟨intervalSeconds, jitterSeconds, not_le.mp hinterval, not_lt.mp hjitter, not_le.mp hlarge⟩

/-- The schedule of settings in their ranges can be built. -/
theorem WatchConfiguration.InRange.build {s : WatchConfiguration} (h : s.InRange) :
    PollSchedule.build s.pollIntervalSeconds s.pollJitterSeconds = .ok (s.polling h).schedule := by
  have hinterval : ¬ (s.pollIntervalSeconds : ℚ) ≤ 0 := not_le.mpr (s.polling h).schedule.interval_pos
  have hjitter : ¬ (s.pollJitterSeconds : ℚ) < 0 := not_lt.mpr (s.polling h).schedule.jitter_nonneg
  have hlarge : ¬ (s.pollIntervalSeconds : ℚ) ≤ s.pollJitterSeconds :=
    not_le.mpr (s.polling h).schedule.jitter_lt
  unfold PollSchedule.build
  rw [dif_neg hinterval, dif_neg hjitter, dif_neg hlarge]
  rfl

theorem ok_of_bind {α β : Type} {x : Except SettingsError α} {f : α → Except SettingsError β} {b : β}
    (h : x >>= f = .ok b) : ∃ a, x = .ok a ∧ f a = .ok b := by
  cases x with
  | error e => contradiction
  | ok a => exact ⟨a, rfl, h⟩

/-- Settings that are returned are in their ranges. -/
theorem inRange_of_fromEnvironment {s : WatchConfiguration} (h : fromEnvironment zone data env = .ok s) :
    s.InRange := by
  unfold fromEnvironment at h
  obtain ⟨name, -, h⟩ := ok_of_bind h
  obtain ⟨url, -, h⟩ := ok_of_bind h
  obtain ⟨interval, hinterval, h⟩ := ok_of_bind h
  obtain ⟨jitter, hjitter, h⟩ := ok_of_bind h
  obtain ⟨attempts, hattempts, h⟩ := ok_of_bind h
  obtain ⟨horizon, hhorizon, h⟩ := ok_of_bind h
  obtain ⟨providerTimeout, htimeout, h⟩ := ok_of_bind h
  obtain ⟨backoff, hbackoff, h⟩ := ok_of_bind h
  obtain ⟨capacity, hcapacity, h⟩ := ok_of_bind h
  obtain ⟨idleTtl, hidle, h⟩ := ok_of_bind h
  obtain ⟨retention, hretention, h⟩ := ok_of_bind h
  obtain ⟨terminal, hterminal, h⟩ := ok_of_bind h
  obtain ⟨lease, hlease, h⟩ := ok_of_bind h
  obtain ⟨sweep, hsweep, h⟩ := ok_of_bind h
  obtain rfl := Except.ok.inj h
  obtain ⟨-, hlow, hhigh⟩ := (pollInterval_comes env).of_ok hinterval
  have hinterval : 15 ≤ interval ∧ interval ≤ 3600 := by omega
  have hceiling := (backoffMax_comes env interval).of_ok hbackoff
  exact {
    interval := hinterval
    jitter := (pollJitter_comes env interval).of_ok hjitter
    attempts := ((boundedCount_comes env .maxPollAttempts (by decide)).of_ok hattempts).1
    horizon := ((boundedCount_comes env .dispatchHorizon (by decide)).of_ok hhorizon).1
    providerTimeout := ((boundedCount_comes env .providerCallTimeout (by decide)).of_ok htimeout).1
    backoff := hceiling.1
    interval_le_backoff := hceiling.2
    capacity := ((boundedCount_comes env .mockSlotCapacity (by decide)).of_ok hcapacity).1
    idleTtl := ((boundedCount_comes env .mockSlotIdleTtl (by decide)).of_ok hidle).1
    retention := ((boundedCount_comes env .mockBookingRetention (by decide)).of_ok hretention).1
    terminal := ((boundedCount_comes env .terminalRetention (by decide)).of_ok hterminal).1
    lease := ((boundedCount_comes env .recoveryLeaderLease (by decide)).of_ok hlease).1
    sweep := ((boundedCount_comes env .recoverySweep (by decide)).of_ok hsweep).1
  }

/-- `from_environment` raises a `ConfigurationError`, or returns settings in their ranges from which the schedule
can be built. -/
def Settled (r : Except SettingsError WatchConfiguration) : Prop :=
  (∃ e, r = .error (.configuration e)) ∨
    ∃ s, r = .ok s ∧ s.InRange ∧ ∃ schedule, PollSchedule.build s.pollIntervalSeconds s.pollJitterSeconds =
      .ok schedule

/-- It does unless a `ValueError` is raised. -/
theorem settled_iff : Settled (fromEnvironment zone data env) ↔
    (fromEnvironment zone data env).map (fun _ => ()) ≠ .error .valueError := by
  constructor
  · rintro (⟨e, he⟩ | ⟨s, hs, -⟩)
    · rw [he]
      simp [Except.map]
    · rw [hs]
      simp [Except.map]
  · intro hne
    cases hr : fromEnvironment zone data env with
    | error e =>
      cases e with
      | configuration e => exact .inl ⟨e, rfl⟩
      | valueError =>
        rw [hr] at hne
        exact absurd rfl hne
    | ok s =>
      have hrange := inRange_of_fromEnvironment hr
      exact .inr ⟨s, rfl, hrange, _, hrange.build⟩

end Readings

/-- `from_environment` is total, in that it returns settings in their ranges or raises a `ConfigurationError`, if
and only if a setting is refused before any whose text makes `urlparse` or `int` raise. -/
theorem settings_total_iff (zone : String → ZoneAnswer) (data : UrlData) (env : Environment) :
    Settled (fromEnvironment zone data env) ↔ Readable zone data env := by
  rw [settled_iff, fromEnvironment_readAll, readAll_ne_valueError]
  unfold Readable
  refine forall_congr' fun before => forall_congr' fun k => forall_congr' fun after => imp_congr_right fun _ => ?_
  rw [(Setting.reading_comes k).raises_iff]
  refine imp_congr_right fun _ => exists_congr fun j => and_congr_right fun _ => ?_
  exact (Setting.reading_comes j).refused_iff

/-- An environment with one variable. -/
def only (name value : String) : Environment := fun other => if other = name then some value else none

/-- The URL data of texts that have no addresses in brackets and are normal. -/
def plainUrls : UrlData := ⟨id, fun _ => false⟩

/-- The settings when only the time zone is set. -/
def utcConfiguration : WatchConfiguration :=
  ⟨"UTC", "redis://localhost:6379/0", 180, 30, 25000, 300, 45, 3600, 10000, 3600, 604800, 604800, 30, 30⟩

theorem fromEnvironment_utc : fromEnvironment (fun _ => .found) plainUrls (only "RESERVATION_TIMEZONE" "UTC") =
    .ok utcConfiguration := by
  decide +kernel

/-- A superscript two is a digit that `int` does not read. -/
theorem superscript_not_settled :
    ¬ Settled (fromEnvironment (fun _ => .found) plainUrls (only "WATCH_MAX_POLL_ATTEMPTS" "²")) := by
  rw [settled_iff, fromEnvironment_readAll]
  decide +kernel

end Dibs
