import Dibs.Api.Access
import Dibs.Integrations.Email
import Dibs.Service.Answers

/-!
# Mail to the owners of watches

`EmailNotificationService` and `AccountRecipientResolver` over the watch service, the routes and the tables of the
accounts. A notification looks the account of its watch up, then the address of the account, and sends what
`compose` makes of its document in a thread of its own; it can end at each of its awaits, when its time is over or
something raises, and nothing is sent again.

The watch service of `AnsweredSys` and the routes of `AccessSys` only meet in the tables that a notification reads,
so the machine takes their steps in any order.
-/

namespace Dibs

/-- Where a notification stands. -/
inductive MailStage
  /-- `email_for_watch`, before `get_account_owner`. -/
  | resolving
  /-- Before `get_by_id`. -/
  | addressing (userId : String)
  /-- `send`, in its thread. -/
  | sending (recipient : String)
  | delivered (message : EmailMessage)
  /-- There was nobody to tell, or it failed. -/
  | dropped
deriving DecidableEq

/-- A notification on its way. -/
structure Mail where
  notice : Notice
  stage : MailStage
deriving DecidableEq

/-- What the application is built with. -/
structure MailApp where
  svc : WatchService
  accountsEnabled : Bool
  lower : String → String
  settings : AccountSettings
  hasher : PasswordHasher
  parses : HeaderParser
  sender : String
  dashboardBaseUrl : String

/-- The message of a notification. -/
def MailApp.message (app : MailApp) (notice : Notice) (recipient : String) : Option EmailMessage :=
  SmtplibSender.message app.parses app.sender recipient (compose notice.watch notice.event app.dashboardBaseUrl)

/-- The next stage of a notification: `notify`, with `email_for_watch`, from await to await. -/
def Mail.next (app : MailApp) (history : WatchHistory) (accounts : AccountTables) (mail : Mail) : Option MailStage :=
  match mail.stage with
  | .resolving => match history.getAccountOwner mail.notice.watch.watchId with
    | none => some .dropped
    | some userId => some (.addressing userId)
  | .addressing userId => match accounts.getById userId with
    | none => some .dropped
    | some user => some (.sending user.email)
  | .sending recipient => match app.message mail.notice recipient with
    | none => some .dropped
    | some message => some (.delivered message)
  | .delivered _ | .dropped => none

/-- What was delivered of a notification. -/
def Mail.sent (mail : Mail) : Option (Notice × EmailMessage) :=
  match mail.stage with
  | .delivered message => some (mail.notice, message)
  | _ => none

/-- The notification that a step of the service sends. -/
def Sys.notice (s : Sys) : SysLabel → Option Notice
  | .resume i _ _ => (s.tasks i).notice
  | _ => none

/-- What a step sends. -/
theorem Sys.sent_eq (svc : WatchService) (s : Sys) (label : SysLabel) :
    ((sysMachine svc).exec label s).sent = (s.notice label).toList ++ s.sent := by
  cases label <;> rfl

/-- The watch service, the routes, and the notifications so far, oldest first. -/
structure MailSys (κ : Type*) where
  service : AnsweredSys
  access : AccessSys κ
  mails : List Mail

/-- What can happen next. -/
inductive MailStep (κ : Type*)
  /-- The watch service takes a step. -/
  | service (label : SysLabel)
  /-- The routes take a step. -/
  | access (step : AccessStep κ)
  /-- A notification goes on. -/
  | advance (k : ℕ)
  /-- A notification fails: its time is over, something raises, or the server refuses the message. -/
  | drop (k : ℕ)

namespace MailSys

variable {κ : Type*} [DecidableEq κ]

/-- A notification is at another stage. -/
def move (s : MailSys κ) (k : ℕ) (stage : MailStage) : MailSys κ :=
  { s with mails := s.mails.modify k fun mail => { mail with stage := stage } }

/-- The next stage of a notification, if there is one. -/
def next (app : MailApp) (s : MailSys κ) (k : ℕ) : Option MailStage :=
  s.mails[k]?.bind fun mail => mail.next app s.access.history.table s.access.auth.tables

/-- The routes of the application. -/
abbrev routes (app : MailApp) : Machine (AccessSys κ) (AccessStep κ) :=
  AccessSys.machine app.accountsEnabled app.lower app.settings app.hasher

/-- The application as a machine, before anything is sent. -/
def machine (app : MailApp) : Machine (MailSys κ) (MailStep κ) where
  init s := (answeredMachine app.svc).init s.service ∧ (routes app).init s.access ∧ s.mails = []
  allowed s
    | .service label => (answeredMachine app.svc).allowed s.service label
    | .access step => (routes app).allowed s.access step
    | .advance k | .drop k => (s.next app k).isSome = true
  exec
    | .service label, s =>
      { s with
        service := (answeredMachine app.svc).exec label s.service
        mails := s.mails ++ ((s.service.sys.notice label).map (⟨·, .resolving⟩)).toList }
    | .access step, s => { s with access := (routes app).exec step s.access }
    | .advance k, s => s.move k ((s.next app k).getD .dropped)
    | .drop k, s => s.move k .dropped

/-- The messages that were delivered, with their notifications. -/
def outbox (s : MailSys κ) : List (Notice × EmailMessage) := s.mails.filterMap Mail.sent

end MailSys

/-! ## The routes keep owners and accounts -/

namespace AccessSys

variable {κ : Type*} [DecidableEq κ] {enabled : Bool} {lower : String → String} {settings : AccountSettings}
  {hasher : PasswordHasher} {s s' : AccessSys κ}

/-- A step takes the projection on, and adds to what happened to the accounts. -/
theorem Moves.later (h : Moves enabled lower settings hasher s s') :
    accountMachine.Later s.history s'.history ∧ ∃ events, s'.auth.journal = events ++ s.auth.journal := by
  cases h with
  | request k r auth hidle hauth =>
    refine ⟨.refl, ?_⟩
    obtain ⟨rfl, -⟩ | ⟨-, -, rfl⟩ := hauth
    · exact ⟨[], rfl⟩
    · exact AuthSys.exec_journal ..
  | auth i hallowed => exact ⟨.refl, AuthSys.exec_journal ..⟩
  | claim k clientId user token hroute =>
    exact ⟨.single ⟨.claimAnonymous clientId user.id, trivial, rfl⟩, [], rfl⟩
  | create k watch clientId user hroute hfresh =>
    exact ⟨.single ⟨.record (creationRecord watch clientId user), .inr hfresh, rfl⟩, [], rfl⟩
  | record call huser => exact ⟨.single ⟨.record call, .inl huser, rfl⟩, [], rfl⟩
  | authenticated | check | serve | list | fail => exact ⟨.refl, [], rfl⟩

/-- A step keeps the account of a watch. -/
theorem Inv.owner_kept (h : s.Inv lower settings hasher) (hmoves : Moves enabled lower settings hasher s s')
    {u userId : String} (howner : s.history.table.getAccountOwner u = some userId) :
    s'.history.table.getAccountOwner u = some userId :=
  Accounts.owner_kept h.history hmoves.later.1 howner

/-- The accounts are those of the journal. -/
theorem Inv.getById (h : s.Inv lower settings hasher) (userId : String) :
    s.auth.tables.getById userId = (accountOf s.auth.journal userId).map StoredUser.toPublic := by
  rw [AccountTables.getById, (AuthSys.inv h.auth).users]

/-- A step keeps an account. -/
theorem Inv.account_kept (h : s.Inv lower settings hasher) (hmoves : Moves enabled lower settings hasher s s')
    {userId : String} {user : User} (huser : s.auth.tables.getById userId = some user) :
    s'.auth.tables.getById userId = some user := by
  obtain ⟨events, hjournal⟩ := hmoves.later.2
  rw [h.getById] at huser
  obtain ⟨stored, hstored, rfl⟩ := Option.map_eq_some_iff.mp huser
  rw [(h.moves hmoves).getById, hjournal, accountOf_append events hstored]
  rfl

/-- An account was asked for in a signup, and its address is the one that was given there. -/
theorem Inv.signedUp (h : s.Inv lower settings hasher) {userId : String} {user : User}
    (huser : s.auth.tables.getById userId = some user) : user.id = userId ∧
      ∃ k password, SignupAsked lower settings s.auth.journal k user.email password := by
  obtain ⟨stored, hstored, rfl⟩ := Option.map_eq_some_iff.mp huser
  refine ⟨s.auth.tables.userKey _ _ hstored, ?_⟩
  rw [(AuthSys.inv h.auth).users] at hstored
  obtain ⟨event, hevent, haccount⟩ :=
    List.mem_filterMap.mp (List.mem_reverse.mp (List.mem_of_find?_eq_some hstored))
  cases event with
  | created k u password =>
    obtain rfl := Option.some.inj haccount
    exact ⟨k, password, ((AuthSys.inv h.auth).registered k u password hevent).2.2.1⟩
  | _ => contradiction

end AccessSys

/-- An address has no line break. -/
theorem unbroken_of_normalizeEmail {lower : String → String} {given email : String}
    (h : normalizeEmail lower given = some email) : Unbroken email := by
  have hspace : ∀ c, isLineBreak c = true → isSpace c = true := by
    intro c hc
    have hall : ∀ n ∈ [0x0a, 0x0b, 0x0c, 0x0d, 0x1c, 0x1d, 0x1e, 0x85, 0x2028, 0x2029],
      isSpace (Char.ofNat n) = true := by decide
    have hc' := hall _ (of_decide_eq_true hc)
    rwa [Char.ofNat_toNat] at hc'
  unfold normalizeEmail at h
  dsimp only at h
  split_ifs at h with hemail
  obtain rfl := Option.some.inj h
  obtain ⟨name, host, zone, htext, -, -, -, hall⟩ := isEmail_iff.mp hemail
  intro c hc
  by_contra hbreak
  have hbreak : isLineBreak c = true := by simpa using hbreak
  have haddress : isAddressChar c = false := by simp [isAddressChar, hspace c hbreak]
  rw [htext] at hc
  simp only [List.mem_append, List.mem_cons] at hc hall
  rcases hc with hc | rfl | hc | rfl | hc
  · exact absurd (hall c (.inl (.inl hc))) (by simp [haddress])
  · exact absurd hbreak (by decide)
  · exact absurd (hall c (.inl (.inr hc))) (by simp [haddress])
  · exact absurd hbreak (by decide)
  · exact absurd (hall c (.inr hc)) (by simp [haddress])

/-! ## Runs -/

namespace MailSys

variable {κ : Type*} [DecidableEq κ] {app : MailApp} {s : MailSys κ}

/-- The address of the account that owns a watch. -/
def Addressed (access : AccessSys κ) (watchId recipient : String) : Prop :=
  ∃ user : User, access.history.table.getAccountOwner watchId = some user.id ∧
    access.auth.tables.getById user.id = some user ∧ recipient = user.email

/-- What a notification knows where it stands. -/
def Sound (app : MailApp) (access : AccessSys κ) (mail : Mail) : Prop :=
  match mail.stage with
  | .addressing userId => access.history.table.getAccountOwner mail.notice.watch.watchId = some userId
  | .sending recipient => Addressed access mail.notice.watch.watchId recipient
  | .delivered message => ∃ recipient, Addressed access mail.notice.watch.watchId recipient ∧
      app.message mail.notice recipient = some message
  | .resolving | .dropped => True

/-- The invariant: the notifications are the notices that the service sent, and they know what they should. -/
structure Inv (app : MailApp) (s : MailSys κ) : Prop where
  service : s.service.Inv app.svc
  reach : (sysMachine app.svc).Reach s.service.sys
  access : s.access.Inv app.lower app.settings app.hasher
  notices : s.mails.map Mail.notice = s.service.sys.sent.reverse
  sound : ∀ mail ∈ s.mails, Sound app s.access mail

/-- What a notification knows stays. -/
theorem Sound.moves {access access' : AccessSys κ} (h : access.Inv app.lower app.settings app.hasher)
    (hmoves : AccessSys.Moves app.accountsEnabled app.lower app.settings app.hasher access access') {mail : Mail}
    (hsound : Sound app access mail) : Sound app access' mail := by
  have haddressed : ∀ {watchId recipient}, Addressed access watchId recipient →
      Addressed access' watchId recipient :=
    fun ⟨user, howner, huser, hrecipient⟩ =>
      ⟨user, h.owner_kept hmoves howner, h.account_kept hmoves huser, hrecipient⟩
  unfold Sound at hsound ⊢
  split at hsound
  · exact h.owner_kept hmoves hsound
  · exact haddressed hsound
  · obtain ⟨recipient, hrecipient, hmessage⟩ := hsound
    exact ⟨recipient, haddressed hrecipient, hmessage⟩
  all_goals trivial

/-- A notification that goes on knows what it should. -/
theorem Sound.next {access : AccessSys κ} (h : access.Inv app.lower app.settings app.hasher) {mail : Mail}
    (hsound : Sound app access mail) {stage : MailStage}
    (hnext : mail.next app access.history.table access.auth.tables = some stage) :
    Sound app access { mail with stage := stage } := by
  obtain ⟨notice, stage'⟩ := mail
  cases stage' with
  | resolving =>
    simp only [Mail.next] at hnext
    split at hnext <;> obtain rfl := Option.some.inj hnext
    · trivial
    · assumption
  | addressing userId =>
    simp only [Mail.next] at hnext
    split at hnext <;> obtain rfl := Option.some.inj hnext
    · trivial
    · rename_i user huser
      obtain ⟨rfl, -⟩ := h.signedUp huser
      exact ⟨user, hsound, huser, rfl⟩
  | sending recipient =>
    simp only [Mail.next] at hnext
    split at hnext <;> obtain rfl := Option.some.inj hnext
    · trivial
    · exact ⟨recipient, hsound, ‹_›⟩
  | delivered | dropped => cases hnext

/-- A notification that moves keeps the invariant when it knows what it should. -/
theorem Inv.move (h : s.Inv app) {k : ℕ} {stage : MailStage}
    (hstage : ∀ mail, s.mails[k]? = some mail → Sound app s.access { mail with stage := stage }) :
    (s.move k stage).Inv app where
  service := h.service
  reach := h.reach
  access := h.access
  notices := by
    refine Eq.trans (List.ext_getElem? fun i => ?_) h.notices
    simp only [MailSys.move, List.getElem?_map, List.getElem?_modify]
    cases s.mails[i]? with
    | none => rfl
    | some mail =>
      simp only [Option.map_some]
      split_ifs <;> rfl
  sound mail hmail := by
    obtain ⟨i, hi⟩ := List.mem_iff_getElem?.mp hmail
    simp only [MailSys.move, List.getElem?_modify] at hi
    obtain ⟨old, hold, rfl⟩ := Option.map_eq_some_iff.mp hi
    split_ifs with hk
    · exact hstage old (hk ▸ hold)
    · exact h.sound old (List.mem_of_getElem? hold)

/-- Every step keeps the invariant. -/
theorem Inv.exec (h : s.Inv app) {i : MailStep κ} (ha : (machine app).allowed s i) :
    ((machine app).exec i s).Inv app := by
  cases i with
  | service label =>
    have hservice := h.service.exec ha
    refine ⟨hservice, hservice.sys.of_restrict, h.access, ?_, fun mail hmail => ?_⟩
    · show (s.mails ++ ((s.service.sys.notice label).map (Mail.mk · .resolving)).toList).map Mail.notice =
        ((sysMachine app.svc).exec label s.service.sys).sent.reverse
      rw [Sys.sent_eq, List.map_append, h.notices, List.reverse_append]
      cases s.service.sys.notice label <;> rfl
    · rcases List.mem_append.mp hmail with hold | hnew
      · exact h.sound mail hold
      · obtain ⟨notice, -, rfl⟩ := Option.map_eq_some_iff.mp (Option.mem_toList.mp hnew)
        trivial
  | access step =>
    have hmoves := AccessSys.moves_of_allowed ha
    exact ⟨h.service, h.reach, h.access.moves hmoves, h.notices,
      fun mail hmail => (h.sound mail hmail).moves h.access hmoves⟩
  | advance k =>
    obtain ⟨stage, hstage⟩ := Option.isSome_iff_exists.mp ha
    show (s.move k ((s.next app k).getD .dropped)).Inv app
    rw [hstage, Option.getD_some]
    refine h.move fun mail hmail => (h.sound mail (List.mem_of_getElem? hmail)).next h.access ?_
    rwa [MailSys.next, hmail, Option.bind_some] at hstage
  | drop k => exact h.move fun mail _ => trivial

/-- The invariant holds in every run. -/
theorem inv (h : (machine app).Reach s) : s.Inv app := by
  refine h.invariant (P := fun s => s.Inv app) ?_ fun s i _ hs ha => hs.exec ha
  rintro s ⟨hservice, haccess, hmails⟩
  have hinv := AnsweredSys.inv (.init hservice)
  refine ⟨hinv, hinv.sys.of_restrict, AccessSys.inv (.init haccess), ?_, fun mail hmail => ?_⟩
  · rw [hmails, hservice.1.2.2.1]
    rfl
  · rw [hmails] at hmail
    contradiction

/-- What is in the outbox was delivered of a notice. -/
theorem Inv.outbox (h : s.Inv app) {notice : Notice} {message : EmailMessage} (hm : (notice, message) ∈ s.outbox) :
    notice ∈ s.service.sys.sent ∧ ∃ recipient, Addressed s.access notice.watch.watchId recipient ∧
      app.message notice recipient = some message := by
  obtain ⟨⟨notice', stage⟩, hmail, hsent⟩ := List.mem_filterMap.mp hm
  have hsound := h.sound _ hmail
  cases stage with
  | delivered message' =>
    obtain ⟨rfl, rfl⟩ := Prod.mk.inj (Option.some.inj hsent)
    refine ⟨?_, hsound⟩
    rw [← List.mem_reverse, ← h.notices]
    exact List.mem_map_of_mem hmail
  | _ => contradiction

/-- What was delivered is of some of the notifications, in their order. -/
theorem outbox_sublist (mails : List Mail) :
    ((mails.filterMap Mail.sent).map Prod.fst).Sublist (mails.map Mail.notice) := by
  induction mails with
  | nil => exact List.Sublist.refl _
  | cons mail mails ih =>
    obtain ⟨notice, stage⟩ := mail
    cases stage with
    | delivered message => exact ih.cons_cons notice
    | _ => exact ih.cons notice

/-- At most one message is delivered about a watch. -/
theorem Inv.outbox_le_one (h : s.Inv app) (u : String) :
    (s.outbox.filter fun m => decide (m.1.watch.watchId = u)).length ≤ 1 := by
  have hsent : (s.service.sys.sentFor u).length ≤ 1 := by
    rcases Sys.told h.reach u with hsilent | ⟨notice, hheard⟩
    · simp [hsilent.sent]
    · rcases hheard.sent with hsent | hsent <;> simp [hsent]
  have hsublist := (outbox_sublist s.mails).filter fun notice => decide (notice.watch.watchId = u)
  rw [h.notices, List.filter_reverse, List.filter_map] at hsublist
  calc (s.outbox.filter fun m => decide (m.1.watch.watchId = u)).length
      = ((s.outbox.filter fun m => decide (m.1.watch.watchId = u)).map Prod.fst).length := by
        rw [List.length_map]
    _ ≤ (s.service.sys.sentFor u).reverse.length := hsublist.length_le
    _ ≤ 1 := by rwa [List.length_reverse]

/-- In every run of the service, the routes and the notifications, a message is only addressed to the owner of its
watch. Each one that is delivered is what `compose` makes of a document that the service announced; its recipient is
the address that was given in the signup of the account that owns the watch, now and from then on, which created the
watch or claimed it; and no watch has more than one. -/
theorem mails_reach_owners (h : (machine app).Reach s) :
    (∀ notice message, (notice, message) ∈ s.outbox → notice ∈ s.service.sys.sent ∧ ∃ user : User,
      s.access.history.table.getAccountOwner notice.watch.watchId = some user.id ∧
      (∃ k password, SignupAsked app.lower app.settings s.access.auth.journal k user.email password) ∧
      AccessSys.Credited s.access.ownership notice.watch.watchId user.id ∧
      message.recipient = user.email ∧ message.subject =
        (compose notice.watch notice.event app.dashboardBaseUrl).subject ∧
      message.content = (compose notice.watch notice.event app.dashboardBaseUrl).body) ∧
    ∀ u, (s.outbox.filter fun m => decide (m.1.watch.watchId = u)).length ≤ 1 := by
  have hinv := inv h
  refine ⟨fun notice message hm => ?_, hinv.outbox_le_one⟩
  obtain ⟨hnotice, recipient, ⟨user, howner, huser, rfl⟩, hmessage⟩ := hinv.outbox hm
  obtain ⟨-, k, password, hasked⟩ := hinv.access.signedUp huser
  refine ⟨hnotice, user, howner, ⟨k, password, hasked⟩, hinv.access.owned _ _ howner, ?_⟩
  unfold MailApp.message SmtplibSender.message at hmessage
  split_ifs at hmessage
  obtain rfl := Option.some.inj hmessage
  exact ⟨rfl, rfl, rfl⟩

/-- What a subject that begins in this way says about the provider's answers for a watch. -/
def Holds (answers : AnswerLog) (u content : String) : Headline → Prop
  | .booked => ∃ booking, answers.Confirmed u booking ∧ booking.isSimulated = false ∧
      ∃ opening rest, content = opening ++ booking.bookingId ++ rest
  | .mockBooking => Disclaims content ∧ ∃ booking, answers.Confirmed u booking ∧ booking.isSimulated = true ∧
      ∃ opening rest, content = opening ++ booking.bookingId ++ rest
  | .opened => ∃ slots, answers.Found u slots ∧ ∃ slot ∈ slots.take maxRecordedSlots, slot.isSimulated = false
  | .mockAvailability => Disclaims content ∧ ∃ slots, answers.Found u slots ∧
      ∀ slot ∈ slots.take maxRecordedSlots, slot.isSimulated = true
  | .ended => True
  | .unconfirmed => False

/-- What `compose` makes of a notice is true of the provider's answers. -/
theorem compose_holds {answers : AnswerLog} {notice : Notice} (h : AnsweredSys.Announces answers notice)
    (dashboardBaseUrl : String) : ∃ headline : Headline,
      (∃ rest, (compose notice.watch notice.event dashboardBaseUrl).subject = headline.text ++ rest) ∧
      Holds answers notice.watch.watchId (compose notice.watch notice.event dashboardBaseUrl).body headline := by
  obtain ⟨watch, event⟩ := notice
  obtain ⟨hevent, -, hshows⟩ := h
  dsimp only at hevent hshows ⊢
  unfold Watch.Shows at hshows
  cases hstatus : watch.status with
  | active | cancelled =>
    rw [hstatus] at hevent
    contradiction
  | expired =>
    obtain rfl : WatchEvent.expired = event := by simpa [hstatus, eventFor] using hevent
    exact ⟨.ended, ⟨watch.query.venueName ++ " watch has ended", String.append_assoc ..⟩, trivial⟩
  | booked =>
    obtain rfl : WatchEvent.booked = event := by simpa [hstatus, eventFor] using hevent
    rw [hstatus] at hshows
    obtain ⟨booking, hgiven, hbooking, -⟩ := hshows
    obtain ⟨hsubject, hquoted⟩ := compose_booked watch dashboardBaseUrl hbooking
    cases hsimulated : booking.isSimulated with
    | true =>
      rw [hsimulated] at hsubject
      exact ⟨.mockBooking, ⟨_, hsubject⟩, compose_booked_disclaims _ _ hbooking hsimulated, booking, hgiven,
        hsimulated, hquoted⟩
    | false =>
      rw [hsimulated] at hsubject
      exact ⟨.booked, ⟨_, hsubject⟩, booking, hgiven, hsimulated, hquoted⟩
  | found =>
    obtain rfl : WatchEvent.availabilityFound = event := by simpa [hstatus, eventFor] using hevent
    rw [hstatus] at hshows
    obtain ⟨-, slots, hfound, hshown⟩ := hshows
    obtain ⟨slot, rest, hcons⟩ := List.exists_cons_of_ne_nil hfound.1
    have hslots : watch.foundSlots = slot :: rest.take (maxRecordedSlots - 1) := by
      rw [hshown, hcons]
      rfl
    have hsubject := compose_found watch dashboardBaseUrl hslots
    have hne : watch.foundSlots ≠ [] := by
      rw [hslots]
      exact List.cons_ne_nil _ _
    rw [← hslots] at hsubject
    split_ifs at hsubject with hall
    · rw [String.append_assoc, String.append_assoc] at hsubject
      refine ⟨.mockAvailability, ⟨_, hsubject⟩, compose_found_disclaims _ _ hne hall, slots, hfound, ?_⟩
      exact List.all_eq_true.mp (hshown ▸ hall)
    · rw [String.append_assoc, String.append_assoc] at hsubject
      refine ⟨.opened, ⟨_, hsubject⟩, slots, hfound, ?_⟩
      rw [hshown] at hall
      obtain ⟨x, hx, hreal⟩ := List.all_eq_false.mp (Bool.eq_false_iff.mpr hall)
      exact ⟨x, hx, Bool.eq_false_iff.mpr hreal⟩

/-- No message says more than the provider answered. In every run a message whose subject says that a table was
booked quotes a confirmation that the provider gave for its own watch, and says that it is a simulation exactly if
the confirmation is one; one whose subject says that a table opened tells of slots that a search for its own watch
found, and says that it is a simulation exactly if all slots that are kept are; a simulation is also named in the
text; and the text for a booking without a confirmation is never sent. -/
theorem mails_truthful (h : (machine app).Reach s) {notice : Notice} {message : EmailMessage}
    (hm : (notice, message) ∈ s.outbox) :
    (∃ headline : Headline, headline.text.toList <+: message.subject.toList) ∧
    ∀ headline : Headline, headline.text.toList <+: message.subject.toList →
      Holds s.service.answers notice.watch.watchId message.content headline := by
  have hinv := inv h
  obtain ⟨hnotice, recipient, -, hmessage⟩ := hinv.outbox hm
  obtain ⟨headline, ⟨rest, hsubject⟩, hholds⟩ :=
    compose_holds (hinv.service.sent notice hnotice) app.dashboardBaseUrl
  unfold MailApp.message SmtplibSender.message at hmessage
  split_ifs at hmessage
  obtain rfl := Option.some.inj hmessage
  dsimp only
  rw [hsubject]
  refine ⟨⟨headline, ?_⟩, fun headline' hbegins => ?_⟩
  · rw [String.toList_append]
    exact List.prefix_append _ _
  · rwa [Headline.eq_of_begins hbegins]

/-- A message is only lost to its own text when the name of the venue has a line break, or when the header parser does
not get through the subject or the address. In every run, when it gets through the sender's address, a notification that
is about to be sent gets its message through exactly if the name of the venue is on one line and the parser gets through
both: no name adds a header, and nothing else keeps a message from its server. -/
theorem mail_accepted_iff (hsender : app.parses.sets "From" app.sender = true) (h : (machine app).Reach s) {k : ℕ}
    {notice : Notice} {recipient : String} (hk : s.mails[k]? = some ⟨notice, .sending recipient⟩) :
    (∃ message, s.next app k = some (.delivered message)) ↔ Unbroken notice.watch.query.venueName ∧
      app.parses "Subject" (compose notice.watch notice.event app.dashboardBaseUrl).subject = true ∧
      app.parses "To" recipient = true := by
  have hinv := inv h
  have hmail := List.mem_of_getElem? hk
  obtain ⟨user, -, huser, rfl⟩ : Addressed s.access notice.watch.watchId recipient := hinv.sound _ hmail
  obtain ⟨-, _, _, given, -, hemail, -⟩ := hinv.access.signedUp huser
  have hnotice : notice ∈ s.service.sys.sent := by
    rw [← List.mem_reverse, ← hinv.notices]
    exact List.mem_map_of_mem hmail
  obtain ⟨hevent, hstorable, -⟩ := hinv.service.sent notice hnotice
  have haddress := isHeaderValue_of_unbroken (unbroken_of_normalizeEmail hemail)
  have hmade : (∃ message, app.message notice user.email = some message) ↔
      (app.parses.sets "Subject" (compose notice.watch notice.event app.dashboardBaseUrl).subject &&
        app.parses.sets "From" app.sender && app.parses.sets "To" user.email) = true := by
    unfold MailApp.message SmtplibSender.message
    split_ifs with hset
    · exact ⟨fun _ => hset, fun _ => ⟨_, rfl⟩⟩
    · exact ⟨by simp, fun hc => absurd hc hset⟩
  have hnext : (∃ message, s.next app k = some (.delivered message)) ↔
      ∃ message, app.message notice user.email = some message := by
    simp only [MailSys.next, hk, Option.bind_some, Mail.next]
    cases app.message notice user.email <;> simp
  rw [hnext, hmade, hsender, ← compose_isHeaderValue hstorable.valid hevent app.dashboardBaseUrl]
  simp only [HeaderParser.sets, haddress, Bool.and_true, Bool.true_and, Bool.and_eq_true, and_assoc]

/-! ### A run -/

theorem runs_service {labels : List SysLabel} (h : (answeredMachine app.svc).Runs s.service labels) :
    (machine app).Runs s (labels.map .service) := by
  induction labels generalizing s with
  | nil => trivial
  | cons label labels ih => exact ⟨h.1, ih (s := (machine app).exec (.service label) s) h.2⟩

theorem runs_access {steps : List (AccessStep κ)} (h : (routes app).Runs s.access steps) :
    (machine app).Runs s (steps.map .access) := by
  induction steps generalizing s with
  | nil => trivial
  | cons step steps ih => exact ⟨h.1, ih (s := (machine app).exec (.access step) s) h.2⟩

/-- The application of the sample. -/
def sampleApp : MailApp :=
  ⟨.sample, true, String.toLower, AuthSys.sampleAccountSettings, AuthSys.sampleHasher, fun _ _ => true,
    "dibs@dibs.ca", "https://dibs.ca"⟩

/-- The application before anything happens. -/
def fresh : MailSys ℕ := ⟨.fresh, .sample, []⟩

/-- Ada signs up, and creates a watch. -/
def adaRun : List (AccessStep ℕ) :=
  AccessSys.creationRun.dropLast ++ [.create 1 RedisService.opened.1]

/-- The application after a run of its service. -/
def announced (labels : List SysLabel) : MailSys ℕ :=
  (machine sampleApp).final ((machine sampleApp).final fresh (adaRun.map .access)) (labels.map .service)

theorem announced_reach {labels : List SysLabel} (h : (answeredMachine .sample).Runs .fresh labels) :
    (machine sampleApp).Reach (announced labels) := by
  have hinit : (machine sampleApp).init fresh :=
    ⟨⟨Sys.fresh_init, rfl⟩, ⟨⟨rfl, rfl, fun _ => rfl⟩, ⟨rfl, rfl⟩, fun _ => rfl, rfl⟩, rfl⟩
  have haccess : (routes sampleApp).Runs fresh.access adaRun := by decide +kernel
  have hservice : ((machine sampleApp).final fresh (adaRun.map .access)).service = .fresh := rfl
  refine ((Machine.Reach.init hinit).final (runs_access haccess)).final (runs_service ?_)
  rwa [hservice]

/-- A notification that goes on. -/
theorem Reach.advance (h : (machine app).Reach s) {k : ℕ} (hnext : (s.next app k).isSome = true) :
    (machine app).Reach ((machine app).exec (.advance k) s) :=
  h.step (M := machine app) (.advance k) hnext

/-- The application once the message for Ada is made. -/
def addressed : MailSys ℕ := (machine sampleApp).final (announced AnsweredSys.sampleRun) [.advance 0, .advance 0]

theorem addressed_reach : (machine sampleApp).Reach addressed :=
  Reach.advance (Reach.advance (announced_reach AnsweredSys.sampleRun_runs) (by decide +kernel)) (by decide +kernel)

/-- The application once she was told. -/
def told : MailSys ℕ := (machine sampleApp).final addressed [.advance 0]

theorem told_reach : (machine sampleApp).Reach told :=
  Reach.advance addressed_reach (by decide +kernel)

example : told.outbox.map (fun m => (m.2.recipient, m.2.subject)) =
    [("ada@dibs.ca", "Booked: Trattoria on 2030-01-01")] := by
  decide +kernel

theorem mails_reach_owners_told :
    (∀ notice message, (notice, message) ∈ told.outbox → notice ∈ told.service.sys.sent ∧ ∃ user : User,
      told.access.history.table.getAccountOwner notice.watch.watchId = some user.id ∧
      (∃ k password, SignupAsked String.toLower AuthSys.sampleAccountSettings told.access.auth.journal k user.email
        password) ∧
      AccessSys.Credited told.access.ownership notice.watch.watchId user.id ∧
      message.recipient = user.email ∧ message.subject =
        (compose notice.watch notice.event "https://dibs.ca").subject ∧
      message.content = (compose notice.watch notice.event "https://dibs.ca").body) ∧
    ∀ u, (told.outbox.filter fun m => decide (m.1.watch.watchId = u)).length ≤ 1 :=
  mails_reach_owners told_reach

theorem mails_truthful_told : ∃ notice message, (notice, message) ∈ told.outbox ∧
    (∃ headline : Headline, headline.text.toList <+: message.subject.toList) ∧
      ∀ headline : Headline, headline.text.toList <+: message.subject.toList →
        Holds told.service.answers notice.watch.watchId message.content headline := by
  have hsent : told.outbox ≠ [] := by decide +kernel
  obtain ⟨⟨notice, message⟩, rest, houtbox⟩ := List.exists_cons_of_ne_nil hsent
  have hm : (notice, message) ∈ told.outbox := by
    rw [houtbox]
    exact List.mem_cons_self
  exact ⟨notice, message, hm, mails_truthful told_reach hm⟩

theorem mail_accepted_iff_addressed : ∃ notice : Notice,
    (∃ message, addressed.next sampleApp 0 = some (.delivered message)) ↔ Unbroken notice.watch.query.venueName ∧
      sampleApp.parses "Subject" (compose notice.watch notice.event "https://dibs.ca").subject = true ∧
      sampleApp.parses "To" "ada@dibs.ca" = true := by
  have hsender : sampleApp.parses.sets "From" sampleApp.sender = true := by decide +kernel
  have hsending : addressed.mails.map Mail.stage = [.sending "ada@dibs.ca"] := by decide +kernel
  obtain ⟨⟨notice, stage⟩, hmails, rfl⟩ := List.map_eq_singleton_iff.mp hsending
  have hk : addressed.mails[0]? = some ⟨notice, .sending "ada@dibs.ca"⟩ := by
    rw [hmails]
    rfl
  exact ⟨notice, mail_accepted_iff hsender addressed_reach hk⟩

end MailSys

end Dibs
