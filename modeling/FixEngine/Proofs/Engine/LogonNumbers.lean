import FixEngine.Proofs.Engine.Farewell
import FixEngine.Proofs.Engine.GapRecovery

/-!
# The number of a logon

Both sides decide by its number what becomes of a logon.  Under the expected number or
one ahead of it the session is established, the numbers in between are asked for, and
the number after it is expected next.  Under a number that was expected before, the
connection is closed with a logout, and the identity of the session is free again when
the connection is gone.
-/

namespace FixEngine

namespace Session

variable {s : Session} {received : UInt32}

/-- Below the greatest number, the number after the expected one is expected next. -/
theorem nextIncoming_counted (hbelow : s.counters.nextIncoming < 0xFFFFFFFF) :
    s.counted.counters.nextIncoming.toNat = s.counters.nextIncoming.toNat + 1 := by
  have hcounted : s.counted.counters.nextIncoming = s.counters.nextIncoming + 1 := rfl
  rw [hcounted, toNat_succ_of_lt hbelow]

/-- Below the greatest number, the number after a logon ahead of the expected one is
expected next. -/
theorem nextIncoming_skipped (hahead : s.counters.nextIncoming < received)
    (hbelow : received < 0xFFFFFFFF) :
    (s.skipped received).counters.nextIncoming.toNat = received.toNat + 1 := by
  have hsucc := toNat_succ_of_lt hbelow
  have hle : s.counters.nextIncoming ≤ received + 1 := by
    rw [UInt32.lt_iff_toNat_lt] at hahead
    rw [UInt32.le_iff_toNat_le, hsucc]
    omega
  have hskipped : (s.skipped received).counters.nextIncoming =
      max s.counters.nextIncoming (received + 1) := by
    rw [skipped, if_neg (UInt32.ne_of_lt hbelow)]
    rfl
  rw [hskipped, UInt32.max_def, if_pos hle, hsucc]

/-- A number below the expected one leaves a session as it is. -/
theorem nextIncoming_receiveLogon_of_lt (hlow : received < s.counters.nextIncoming) :
    (s.receiveLogon received).2.counters.nextIncoming = s.counters.nextIncoming := by
  rcases s.receiveLogon_cases received with ⟨rfl, -⟩ | ⟨-, hsame⟩ | ⟨hhigh, -⟩
  · exact absurd hlow (UInt32.lt_irrefl _)
  · rw [hsame]
  · exact absurd hlow (UInt32.lt_asymm hhigh)

end Session

namespace Message

/-- A request asks for one range of numbers. -/
theorem AsksFor.unique {request : Message} {first last first' last' : UInt32}
    (h : request.AsksFor first last) (h' : request.AsksFor first' last') :
    first = first' ∧ last = last' :=
  ⟨Handler.eq_of_ofInt_toNat (Option.some.inj (h.beginSeqNo.symm.trans h'.beginSeqNo)),
    Handler.eq_of_ofInt_toNat (Option.some.inj (h.endSeqNo.symm.trans h'.endSeqNo))⟩

theorem asksFor_stamp (s : Session) (now : Timestamp) (first last : UInt32) :
    (s.stamp now (Admin.resendRequest first last)).2.AsksFor first last :=
  ⟨rfl, rfl, rfl⟩

/-- What is sent because of the numbers between the expected and the received one:
nothing if there are none, and one request for them otherwise. -/
inductive Recovers (expected received : UInt32) : List Message → Prop
  | nothing (hsame : received = expected) : Recovers expected received []
  | request {request : Message} (hahead : expected < received)
      (hasks : request.AsksFor expected (received - 1)) : Recovers expected received [request]

namespace Recovers

variable {expected received : UInt32} {requests : List Message}

theorem map_msgType? (h : Recovers expected received requests) :
    requests.map msgType? =
      (if expected < received then [MsgType.resendRequest] else []).map some := by
  cases h with
  | nothing hsame =>
    rw [hsame, if_neg (UInt32.lt_irrefl expected)]
    rfl
  | request hahead hasks =>
    rw [if_pos hahead, List.map_singleton, hasks.msgType]
    rfl

/-- The numbers that are asked for are the ones from the expected one up to the received
one. -/
theorem asksFor_iff (h : Recovers expected received requests) (n : UInt32) :
    (∃ request ∈ requests, ∃ first last, request.AsksFor first last ∧ first ≤ n ∧ n ≤ last) ↔
      expected ≤ n ∧ n < received := by
  cases h with
  | nothing hsame =>
    refine iff_of_false ?_ ?_
    · rintro ⟨request, hmem, -⟩
      exact absurd hmem List.not_mem_nil
    · rintro ⟨hle, hlt⟩
      rw [hsame] at hlt
      exact UInt32.not_lt.2 hle hlt
  | @request request hahead hasks =>
    have hone : (1 : UInt32).toNat = 1 := rfl
    have hlast : n ≤ received - 1 ↔ n < received := by
      rw [UInt32.lt_iff_toNat_lt] at hahead
      have hle : (1 : UInt32) ≤ received := by
        rw [UInt32.le_iff_toNat_le, hone]
        omega
      rw [UInt32.le_iff_toNat_le, UInt32.lt_iff_toNat_lt, UInt32.toNat_sub_of_le _ _ hle, hone]
      omega
    rw [← hlast]
    constructor
    · rintro ⟨other, hmem, first, last, hrange, hfirst, hn⟩
      cases List.mem_singleton.1 hmem
      obtain ⟨rfl, rfl⟩ := hrange.unique hasks
      exact ⟨hfirst, hn⟩
    · rintro ⟨hfirst, hn⟩
      exact ⟨request, List.mem_singleton_self request, expected, received - 1, hasks, hfirst, hn⟩

end Recovers

end Message

namespace Turn

/-- A turn asks for the message under a number, with the two ends of a request taken as
they stand. -/
def AsksForNumber (t : Turn) (n : UInt32) : Prop :=
  ∃ request ∈ t.messages, ∃ first last, request.AsksFor first last ∧ first ≤ n ∧ n ≤ last

/-- A turn enters the traffic of a session and sends messages in it. -/
structure Enters (t : Turn) (s : Session) (messages : List Message) : Prop where
  phase : t.handler.phase = .established
  session : ∃ s', t.handler.session = some s' ∧ s'.id = s.id ∧
    s'.counters.nextIncoming = s.counters.nextIncoming
  actions : t.actions = messages.map .send

section

variable {t t' : Turn} {s s' : Session} {messages : List Message}

theorem Sends.enters (hsends : t.Sends t' s s' messages) (hactions : t.actions = [])
    (hphase : t'.handler.phase = .established) : t'.Enters s messages where
  phase := hphase
  session := ⟨s', by rw [hsends.handler], hsends.id, hsends.nextIncoming⟩
  actions := by rw [hsends.actions, hactions, List.nil_append]

/-- The session may be established after the messages have been sent in it. -/
theorem Sends.enters_establish (hsends : t.Sends t' s s' messages) (hactions : t.actions = [])
    (id : SessionId) : (t'.establish id).Enters s messages where
  phase := rfl
  session := ⟨s', congrArg Handler.session hsends.handler, hsends.id, hsends.nextIncoming⟩
  actions := by
    have hsame : (t'.establish id).actions = t'.actions := rfl
    rw [hsame, hsends.actions, hactions, List.nil_append]

/-- A turn that refuses sends a logout and closes the connection, and keeps the
expectation of its session. -/
theorem refuse_of_session (hsession : t.handler.session = some s) (hactions : t.actions = [])
    (now : Timestamp) (reason : DisconnectReason) :
    (∃ logout, logout.msgType? = some .logout ∧
      (t.refuse now reason).actions = [.send logout, .disconnect reason]) ∧
    ∃ s', (t.refuse now reason).handler.session = some s' ∧ s'.id = s.id ∧
      s'.counters.nextIncoming = s.counters.nextIncoming := by
  have hsends := sends_send (t := { t with handler.logoutSent := true }) hsession now
    (Admin.logout (some reason.message))
  refine ⟨⟨(s.stamp now (Admin.logout (some reason.message))).2, rfl, ?_⟩, _,
    congrArg Handler.session hsends.handler, hsends.id, hsends.nextIncoming⟩
  rw [refuse, close, act, sendLogout, hsends.actions, hactions]
  rfl

/-- The answer to the logon of an initiator leaves the directory of sessions alone. -/
theorem Hears.sessions_eq {services : Services} {logon : Message}
    (h : t.Hears services logon t') : t'.shared.sessions = t.shared.sessions := by
  cases h.proceeds with
  | spares hspares => exact hspares.sessions
  | establishes hspares _ hestablished => exact hestablished.sessions.trans hspares.sessions

/-- A session that is given up is held by nobody. -/
theorem find?_release (hsession : t.handler.session = some s)
    (hheld : t.shared.sessions.find? s.id = some t.handler.owner) :
    t.release.shared.sessions.find? s.id = none := by
  have hsessions : t.release.shared.sessions =
      Directory.release t.shared.sessions s.id t.handler.owner := by
    simp only [release, hsession]
  rw [hsessions, Directory.release, if_pos hheld]
  exact Table.find?_erase_self _ _

/-- When its connection is gone, the session of a handler is held by nobody. -/
theorem find?_disconnect (hsession : t.handler.session = some s)
    (hheld : t.shared.sessions.find? s.id = some t.handler.owner) :
    t.disconnect.shared.sessions.find? s.id = none := by
  unfold disconnect
  split
  · exact find?_release (t := { t.tell _ with handler.loggedOn := false }) hsession hheld
  · exact find?_release (t := { t with handler.loggedOn := false }) hsession hheld

end

end Turn

namespace Handler

/-- A logon arrives that a handler decides about by its number.  An acceptor has
accepted it, and nobody holds the session of which it speaks; an initiator waits for it
in the session that it has registered. -/
inductive Meets (h : Handler) (services : Services) (shared : Shared) (logon : Message) :
    Session → Prop
  | acceptor (hphase : h.phase = .awaitingLogon) (hrole : h.role = .acceptor)
      (htype : logon.msgType? = some .logon) (haccepts : services.accepts logon = true)
      (hfree : shared.sessions.find? (SessionId.ofInbound logon.header) = none) :
      Meets h services shared logon (.ofLogon services logon)
  | initiator {settings : Settings} {s : Session} (hphase : h.phase = .awaitingLogonAck)
      (hrole : h.role = .initiator settings) (htype : logon.msgType? = some .logon)
      (hsession : h.session = some s) (hheld : shared.sessions.find? s.id = some h.owner) :
      Meets h services shared logon s

/-- The types of the messages with which a handler answers the logon of the other side:
an initiator has sent its own logon before. -/
def greeting (h : Handler) : List MsgType :=
  match h.role with
  | .acceptor => [.logon]
  | .initiator _ => []

/-- A logon under a number establishes a session.  The number after it is expected next,
and what is missing before it is asked for. -/
structure LogsOn (h : Handler) (services : Services) (shared : Shared) (logon : Message)
    (s : Session) (received : UInt32) : Prop where
  phase : (h.receive services shared logon).handler.phase = .established
  sessionId : (h.receive services shared logon).handler.sessionId? = some s.id
  expects : (h.receive services shared logon).handler.expects.toNat = received.toNat + 1
  actions : (h.receive services shared logon).actions =
    (h.receive services shared logon).messages.map .send
  msgTypes : (h.receive services shared logon).messages.map Message.msgType? =
    (h.greeting ++
      if s.counters.nextIncoming < received then [MsgType.resendRequest] else []).map some
  asksForNumber : ∀ n, (h.receive services shared logon).AsksForNumber n ↔
    s.counters.nextIncoming ≤ n ∧ n < received

/-- A logon under a number that was expected before is refused.  The expectation of the
session stays, and a handler that has just registered it gives it up at once. -/
structure TurnsAway (h : Handler) (services : Services) (shared : Shared) (logon : Message)
    (s : Session) (received : UInt32) : Prop where
  phase : (h.receive services shared logon).handler.phase = .closed
  actions : ∃ logout, logout.msgType? = some .logout ∧
    (h.receive services shared logon).actions =
      [.send logout, .disconnect (.sequenceTooLow s.counters.nextIncoming received)]
  unmoved : (s.receiveLogon received).2.counters.nextIncoming = s.counters.nextIncoming
  keeps : h.session = some s → ∃ s', (h.receive services shared logon).handler.session = some s' ∧
    s'.id = s.id ∧ s'.counters.nextIncoming = s.counters.nextIncoming
  givesUp : h.session = none → (h.receive services shared logon).handler.session = none ∧
    (h.receive services shared logon).shared.sessions.find? s.id = none

variable {h : Handler} {services : Services} {shared : Shared} {logon : Message} {s : Session}
  {received : UInt32}

theorem greeting_acceptor (hrole : h.role = .acceptor) : h.greeting = [.logon] := by
  rw [greeting, hrole]

theorem greeting_initiator {settings : Settings} (hrole : h.role = .initiator settings) :
    h.greeting = [] := by
  rw [greeting, hrole]

/-- A handler does not greet with a request. -/
theorem not_mem_greeting (h : Handler) : MsgType.resendRequest ∉ h.greeting := by
  unfold greeting
  split <;> decide

/-! ### What becomes of a logon -/

/-- A logon is answered with a greeting and with a request for what is missing. -/
theorem logsOn_of_enters (answers : List Message) {requests : List Message} {s' : Session}
    (henters : (h.receive services shared logon).Enters s' (answers ++ requests))
    (hid : s'.id = s.id) (hexpects : s'.counters.nextIncoming.toNat = received.toNat + 1)
    (hanswers : answers.map Message.msgType? = h.greeting.map some)
    (hrequests : Message.Recovers s.counters.nextIncoming received requests) :
    h.LogsOn services shared logon s received := by
  obtain ⟨s'', hsession, hsame, hkept⟩ := henters.session
  have hmessages : (h.receive services shared logon).messages = answers ++ requests := by
    rw [Turn.messages, henters.actions, Action.filterMap_message?_map_send]
  have hgreets : ∀ answer ∈ answers, ∀ first last, ¬answer.AsksFor first last := by
    intro answer hanswer first last hasks
    have hmem := List.mem_map_of_mem (f := Message.msgType?) hanswer
    rw [hanswers, hasks.msgType, List.mem_map] at hmem
    obtain ⟨msgType, hgreeting, hrequest⟩ := hmem
    cases hrequest
    exact h.not_mem_greeting hgreeting
  refine ⟨henters.phase, ?_, ?_, ?_, ?_, ?_⟩
  · rw [sessionId?, hsession, Option.map_some, hsame, hid]
  · rw [expects_of_session hsession, hkept, hexpects]
  · rw [hmessages, henters.actions]
  · rw [hmessages, List.map_append, hanswers, hrequests.map_msgType?, ← List.map_append]
  · intro n
    rw [← hrequests.asksFor_iff n, Turn.AsksForNumber, hmessages]
    constructor
    · rintro ⟨request, hmem, first, last, hasks, hn⟩
      rcases List.mem_append.1 hmem with hanswer | hrequest
      · exact absurd hasks (hgreets request hanswer first last)
      · exact ⟨request, hrequest, first, last, hasks, hn⟩
    · rintro ⟨request, hrequest, hrange⟩
      exact ⟨request, List.mem_append_right answers hrequest, hrange⟩

/-- An acceptor establishes the session of a logon that it has accepted, or refuses it. -/
theorem logsOn_or_turnsAway_of_accepts (hrole : h.role = .acceptor) (hsession : h.session = none)
    (haccepts : (Turn.start h shared).Accepts services logon (h.receive services shared logon))
    (hopens : (Turn.start h shared).Opens services logon)
    (hnumber : logon.header.msgSeqNum = some received) (hbelow : received < 0xFFFFFFFF) :
    ((Session.ofLogon services logon).counters.nextIncoming ≤ received ∧
      h.LogsOn services shared logon (.ofLogon services logon) received) ∨
    (received < (Session.ofLogon services logon).counters.nextIncoming ∧
      h.TurnsAway services shared logon (.ofLogon services logon) received) := by
  have hgreeting : ∀ s' : Session,
      [(s'.stamp services.now (Admin.logonAnswer logon)).2].map Message.msgType? =
        h.greeting.map some := by
    intro s'
    rw [greeting_acceptor hrole]
    rfl
  generalize ht : h.receive services shared logon = t at haccepts
  cases haccepts with
  | unknown hrefused => exact absurd (hrefused.symm.trans hopens.accepts) Bool.false_ne_true
  | unnumbered _ hnone => cases hnone.symm.trans hnumber
  | duplicate _ _ hheld => exact absurd hopens.free hheld
  | inOrder _ _ hexpected =>
    cases hnumber.symm.trans hexpected
    have hanswered := Turn.sends_send
      (t := ((Turn.start h shared).registered (.ofLogon services logon)).withSession
        (Session.ofLogon services logon).counted) rfl services.now (Admin.logonAnswer logon)
    have henters := hanswered.enters_establish rfl (Session.ofLogon services logon).id
    rw [← ht] at henters
    exact .inl ⟨UInt32.le_refl _, logsOn_of_enters [_] henters rfl
      (Session.nextIncoming_counted hbelow) (hgreeting _) (.nothing rfl)⟩
  | @ahead n _ _ hahead hhigh =>
    cases hnumber.symm.trans hahead
    have hanswered := Turn.sends_send
      (t := ((Turn.start h shared).registered (.ofLogon services logon)).withSession
        ((Session.ofLogon services logon).skipped received)) rfl services.now
        (Admin.logonAnswer logon)
    have hasked := hanswered.trans (Turn.sends_send
      (congrArg Handler.session hanswered.handler) services.now
      (Admin.resendRequest (Session.ofLogon services logon).counters.nextIncoming (received - 1)))
    have henters := hasked.enters_establish rfl (Session.ofLogon services logon).id
    rw [← ht] at henters
    exact .inl ⟨UInt32.le_of_lt hhigh, logsOn_of_enters [_] henters rfl
      (Session.nextIncoming_skipped hhigh hbelow) (hgreeting _)
      (.request hhigh (Message.asksFor_stamp ..))⟩
  | @stale n _ _ hstale hlow =>
    cases hnumber.symm.trans hstale
    let registered := ((Turn.start h shared).registered (.ofLogon services logon)).withSession
      (Session.ofLogon services logon)
    let reason := DisconnectReason.sequenceTooLow
      (Session.ofLogon services logon).counters.nextIncoming received
    obtain ⟨⟨logout, htype, hactions⟩, s', hrefused, hid, -⟩ :=
      Turn.refuse_of_session (t := registered) rfl rfl services.now reason
    have hheld : (registered.refuse services.now reason).shared.sessions.find? s'.id =
        some (registered.refuse services.now reason).handler.owner := by
      have hspares := Turn.spares_refuse registered services.now reason
      rw [hid, hspares.sessions, hspares.owner]
      exact Table.find?_insert_self _ _ _
    refine .inr ⟨hlow, ?_, ⟨logout, htype, ?_⟩, Session.nextIncoming_receiveLogon_of_lt hlow,
      ?_, ?_⟩
    · rw [ht, Turn.phase_release]
      rfl
    · rw [ht, Turn.actions_release, hactions]
    · intro hsome
      cases hsession.symm.trans hsome
    · rw [ht, ← hid]
      exact fun _ => ⟨Turn.session_release _, Turn.find?_release hrefused hheld⟩

/-- An initiator establishes its session with a logon, or refuses it. -/
theorem logsOn_or_turnsAway_of_hears {settings : Settings} (hrole : h.role = .initiator settings)
    (hsession : h.session = some s)
    (hhears : (Turn.start h shared).Hears services logon (h.receive services shared logon))
    (hnumber : logon.header.msgSeqNum = some received) (hbelow : received < 0xFFFFFFFF) :
    (s.counters.nextIncoming ≤ received ∧ h.LogsOn services shared logon s received) ∨
      (received < s.counters.nextIncoming ∧ h.TurnsAway services shared logon s received) := by
  have hgreeting : [].map Message.msgType? = h.greeting.map some := by
    rw [greeting_initiator hrole]
    rfl
  generalize ht : h.receive services shared logon = t at hhears
  cases hhears with
  | ignored hnone => cases hnone.symm.trans hsession
  | unnumbered _ hnone => cases hnone.symm.trans hnumber
  | @inOrder s' hsame hexpected =>
    cases hsession.symm.trans hsame
    cases hnumber.symm.trans hexpected
    have hsilent := Turn.Sends.refl (t := (Turn.start h shared).withSession s.counted) rfl
    have henters := hsilent.enters_establish rfl s.id
    rw [← ht] at henters
    exact .inl ⟨UInt32.le_refl _, logsOn_of_enters [] henters rfl
      (Session.nextIncoming_counted hbelow) hgreeting (.nothing rfl)⟩
  | @ahead s' n hsame hahead hhigh =>
    cases hsession.symm.trans hsame
    cases hnumber.symm.trans hahead
    have hasked := Turn.sends_send
      (t := ((Turn.start h shared).withSession (s.skipped received)).establish s.id) rfl
      services.now (Admin.resendRequest s.counters.nextIncoming (received - 1))
    have henters := hasked.enters rfl (Turn.phase_send _ services.now _)
    rw [← ht] at henters
    exact .inl ⟨UInt32.le_of_lt hhigh, logsOn_of_enters [] henters rfl
      (Session.nextIncoming_skipped hhigh hbelow) hgreeting
      (.request hhigh (Message.asksFor_stamp ..))⟩
  | @stale s' n hsame hstale hlow =>
    cases hsession.symm.trans hsame
    cases hnumber.symm.trans hstale
    obtain ⟨⟨logout, htype, hactions⟩, hkept⟩ :=
      Turn.refuse_of_session (t := (Turn.start h shared).withSession s) rfl rfl services.now
        (.sequenceTooLow s.counters.nextIncoming received)
    refine .inr ⟨hlow, ?_, ⟨logout, htype, ?_⟩, Session.nextIncoming_receiveLogon_of_lt hlow,
      ?_, ?_⟩
    · rw [ht]
      rfl
    · rw [ht, hactions]
    · rw [ht]
      exact fun _ => hkept
    · intro hnone
      cases hnone.symm.trans hsession

/-! ### Arriving logons -/

theorem accepts_receive (hphase : h.phase = .awaitingLogon) (hrole : h.role = .acceptor)
    (htype : logon.msgType? = some .logon) :
    (Turn.start h shared).Accepts services logon (h.receive services shared logon) := by
  have hreceive : h.receive services shared logon =
      (Turn.start h shared).acceptLogon services logon := by
    simp only [receive, hphase, hrole, htype, if_true]
  rw [hreceive]
  exact Turn.accepts_acceptLogon _ services logon

theorem hears_receive {settings : Settings} (hphase : h.phase = .awaitingLogonAck)
    (hrole : h.role = .initiator settings) (htype : logon.msgType? = some .logon) :
    (Turn.start h shared).Hears services logon (h.receive services shared logon) := by
  have hreceive : h.receive services shared logon =
      (Turn.start h shared).takeLogonAnswer services logon := by
    simp only [receive, hphase, hrole, htype]
  rw [hreceive]
  exact Turn.hears_takeLogonAnswer _ services logon

theorem Meets.phase_ne (hmeets : h.Meets services shared logon s) :
    h.phase ≠ .established ∧ h.phase ≠ .closed := by
  cases hmeets with
  | acceptor hphase | initiator hphase =>
    rw [hphase]
    exact ⟨Phase.noConfusion, Phase.noConfusion⟩

theorem Meets.logsOn_or_turnsAway (hmeets : h.Meets services shared logon s)
    (hpoised : h.IsPoised) (hnumber : logon.header.msgSeqNum = some received)
    (hbelow : received < 0xFFFFFFFF) :
    (s.counters.nextIncoming ≤ received ∧ h.LogsOn services shared logon s received) ∨
      (received < s.counters.nextIncoming ∧ h.TurnsAway services shared logon s received) := by
  cases hmeets with
  | acceptor hphase hrole htype haccepts hfree =>
    have hnumbered : logon.header.msgSeqNum.isSome = true := by
      rw [hnumber]
      rfl
    exact logsOn_or_turnsAway_of_accepts hrole (hpoised hphase)
      (accepts_receive hphase hrole htype) ⟨haccepts, hnumbered, hfree⟩ hnumber hbelow
  | initiator hphase hrole htype hsession =>
    exact logsOn_or_turnsAway_of_hears hrole hsession (hears_receive hphase hrole htype) hnumber
      hbelow

/-- The identity of a session that is refused is free when the connection is gone,
unless another handler has taken it since. -/
theorem TurnsAway.find?_disconnected {final : Shared}
    (haway : h.TurnsAway services shared logon s received)
    (hmeets : h.Meets services shared logon s) (hpoised : h.IsPoised)
    (hfinal : final.sessions.find? s.id =
      (h.receive services shared logon).shared.sessions.find? s.id) :
    ((h.receive services shared logon).handler.disconnected final).shared.sessions.find? s.id =
      none := by
  cases hmeets with
  | acceptor hphase =>
    obtain ⟨hnone, hfree⟩ := haway.givesUp (hpoised hphase)
    have hsilent := Turn.shared_disconnect
      (t := Turn.start (h.receive services shared logon).handler final) hnone
    rw [disconnected, hsilent]
    exact hfinal.trans hfree
  | initiator hphase hrole htype hsession hheld =>
    obtain ⟨s', hkept, hid, -⟩ := haway.keeps hsession
    have hheard : (Turn.start h shared).Hears services logon (h.receive services shared logon) :=
      hears_receive hphase hrole htype
    have howner : (h.receive services shared logon).handler.owner = h.owner :=
      hheard.proceeds.moves.number.1
    have hstill : final.sessions.find? s'.id =
        some (h.receive services shared logon).handler.owner := by
      rw [hid, howner, hfinal, hheard.sessions_eq]
      exact hheld
    rw [← hid]
    exact Turn.find?_disconnect (t := Turn.start _ final) hkept hstill

/-! ### What the application is told -/

/-- A handler that waits has told the application of nothing. -/
theorem told_course_of_waiting (hnew : h.IsNew) (life : Life)
    (hphase : ((h.opened life).after life.inputs).phase ≠ .established)
    (hopen : ((h.opened life).after life.inputs).phase ≠ .closed) :
    h.told life.course = [] ∧ ((h.opened life).after life.inputs).loggedOn = false := by
  cases hasTold_after hnew life with
  | quiet _ hnone hloggedOn => exact ⟨hnone, hloggedOn⟩
  | inside _ _ _ _ hlast => exact (hlast.elim hphase hopen).elim
  | ended _ _ _ hclosed => exact absurd hclosed hopen

/-- The application is not told of the end of a connection of whose logon it was not
told. -/
theorem told_disconnected_of_silent (hloggedOn : h.loggedOn = false) (gone : List Shared) :
    h.told (gone.map .disconnected) = [] := by
  induction gone generalizing h with
  | nil => rfl
  | cons shared rest ih =>
    have hstill : (h.afterCall (.disconnected shared)).loggedOn = false :=
      Turn.loggedOn_disconnect _
    rw [List.map_cons, told, tells_disconnected_of_silent hloggedOn, ih hstill]
    rfl

theorem LogsOn.tells (hlogsOn : h.LogsOn services shared logon s received)
    (hphase : h.phase ≠ .established) :
    h.tells (.input (.message services shared logon)) = [.loggedOn s.id] := by
  cases (h.receives_receive services shared logon).announces hphase with
  | silent _ _ hstays =>
    rcases hstays with hsame | hother
    · exact absurd (hsame.symm.trans hlogsOn.phase) hphase
    · exact absurd hlogsOn.phase hother
  | begins htold hid =>
    cases hid.symm.trans hlogsOn.sessionId
    exact htold.toldSince_eq

/-- Nothing is told of a logon that is refused, nor of anything after it. -/
theorem TurnsAway.told_eq_nil (haway : h.TurnsAway services shared logon s received)
    (hphase : h.phase ≠ .established) (hloggedOn : h.loggedOn = false) (more : List Input)
    (gone : List Shared) :
    h.told (.input (.message services shared logon) ::
      (more.map .input ++ gone.map .disconnected)) = [] := by
  obtain ⟨hsilent, hstill⟩ : h.tells (.input (.message services shared logon)) = [] ∧
      (h.afterCall (.input (.message services shared logon))).loggedOn = false := by
    cases (h.receives_receive services shared logon).announces hphase with
    | silent htold hsame => exact ⟨htold.toldSince_eq, hsame.trans hloggedOn⟩
    | begins _ _ _ hestablished =>
      exact absurd (haway.phase.symm.trans hestablished) Phase.noConfusion
  have hclosed : (h.afterCall (.input (.message services shared logon))).phase = .closed :=
    haway.phase
  rw [told, hsilent, told_append, told_of_closed hclosed, afterCalls_map_input,
    after_eq_of_closed hclosed, told_disconnected_of_silent hstill]
  rfl

/-! ### Lives -/

/-- A logon that a handler waits for loses no number, whichever side the handler takes.
Under the expected number or one ahead of it the session is established, the application
is told of the one logon, and just the numbers in between are asked for.  Under a lower
number the connection is closed with a logout, the application is never told of
anything, and when the connection is gone nobody holds the session. -/
theorem logon_loses_no_number (hnew : h.IsNew) (life : Life) {waiting : Handler}
    (hwaiting : (h.opened life).after life.inputs = waiting)
    (hmeets : waiting.Meets services shared logon s)
    (hnumber : logon.header.msgSeqNum = some received) (hbelow : received < 0xFFFFFFFF) :
    (s.counters.nextIncoming ≤ received →
      waiting.LogsOn services shared logon s received ∧
      h.told (life.course ++ [.input (.message services shared logon)]) = [.loggedOn s.id]) ∧
    (received < s.counters.nextIncoming →
      waiting.TurnsAway services shared logon s received ∧
      (∀ more again,
        h.told ((life.extend (.message services shared logon :: more)).calls again) = []) ∧
      ∀ more final, final.sessions.find? s.id =
          (waiting.receive services shared logon).shared.sessions.find? s.id →
        ((waiting.after (.message services shared logon :: more)).disconnected
          final).shared.sessions.find? s.id = none) := by
  obtain ⟨hestablished, hclosed⟩ := hmeets.phase_ne
  have hafter : h.afterCalls life.course = waiting := (afterCalls_map_input _ _).trans hwaiting
  have hpoised : waiting.IsPoised := hwaiting ▸ (isPoised_opened hnew life).after life.inputs
  obtain ⟨hsilent, hloggedOn⟩ :=
    told_course_of_waiting hnew life (hwaiting ▸ hestablished) (hwaiting ▸ hclosed)
  rw [hwaiting] at hloggedOn
  rcases hmeets.logsOn_or_turnsAway hpoised hnumber hbelow with
    ⟨hle, hlogsOn⟩ | ⟨hlow, haway⟩
  · refine ⟨fun _ => ⟨hlogsOn, ?_⟩, fun hlow => absurd hlow (UInt32.not_lt.2 hle)⟩
    rw [told_append_singleton, hsilent, hafter, hlogsOn.tells hestablished]
    rfl
  · refine ⟨fun hle => absurd hlow (UInt32.not_lt.2 hle), fun _ => ⟨haway, ?_, ?_⟩⟩
    · intro more again
      have hcalls : (life.extend (.message services shared logon :: more)).calls again =
          life.course ++ (.input (.message services shared logon) ::
            (more.map .input ++ (life.final :: again).map .disconnected)) := by
        simp only [Life.calls, Life.course, Life.extend, List.map_append, List.map_cons,
          List.cons_append, List.append_assoc]
      rw [hcalls, told_append, hsilent, hafter]
      exact haway.told_eq_nil hestablished hloggedOn more (life.final :: again)
    · intro more final hfinal
      have hdone : waiting.after (.message services shared logon :: more) =
          (waiting.receive services shared logon).handler :=
        after_eq_of_closed haway.phase more
      rw [hdone]
      exact haway.find?_disconnected hmeets hpoised hfinal

/-- The connection of an acceptor is up and nothing has arrived yet. -/
def sampleKnock : Life where
  services := ⟨.silent, .acceptAll, .epoch, .fresh⟩
  shared := .empty
  inputs := []
  final := .empty

/-- The logon of a client under a number. -/
def sampleLogonUnder (received : UInt32) : Message :=
  ((Session.start { senderCompId := "CLIENT", targetCompId := "SERVER" } "FIX.4.4" received
    1).stamp .epoch (Admin.logon 30 false)).2

/-- A logon under four makes an acceptor that expects one ask for one, two and three, and
one that expects five closes the connection. -/
theorem logon_loses_no_number_sample :
    ∃ (h : Handler) (ahead stale : Services) (s s' : Session), h.IsNew ∧
      (h.opened sampleKnock).Meets ahead .empty (sampleLogonUnder 4) s ∧
      (h.opened sampleKnock).Meets stale .empty (sampleLogonUnder 4) s' ∧
      (∀ n, ((h.opened sampleKnock).receive ahead .empty (sampleLogonUnder 4)).AsksForNumber n ↔
        1 ≤ n ∧ n < 4) ∧
      ((h.opened sampleKnock).receive stale .empty (sampleLogonUnder 4)).actions.getLast? =
        some (.disconnect (.sequenceTooLow 5 4)) := by
  have hnew : (acceptor true 1 none).IsNew := .acceptor true 1 none
  let ahead : Services := ⟨.silent, .acceptAll, .epoch, .fresh⟩
  let stale : Services := ⟨.silent, .acceptAll, .epoch, .fixed 1 5⟩
  have hahead : ((acceptor true 1 none).opened sampleKnock).Meets ahead .empty (sampleLogonUnder 4)
      (.ofLogon ahead (sampleLogonUnder 4)) := .acceptor rfl rfl rfl rfl rfl
  have hstale : ((acceptor true 1 none).opened sampleKnock).Meets stale .empty (sampleLogonUnder 4)
      (.ofLogon stale (sampleLogonUnder 4)) := .acceptor rfl rfl rfl rfl rfl
  have hnumber : (sampleLogonUnder 4).header.msgSeqNum = some 4 := rfl
  obtain ⟨hlogsOn, -⟩ :=
    (logon_loses_no_number hnew sampleKnock rfl hahead hnumber (by decide)).1 (by decide)
  obtain ⟨haway, -⟩ :=
    (logon_loses_no_number hnew sampleKnock rfl hstale hnumber (by decide)).2 (by decide)
  obtain ⟨logout, -, hactions⟩ := haway.actions
  exact ⟨_, ahead, stale, _, _, hnew, hahead, hstale, hlogsOn.asksForNumber,
    congrArg List.getLast? hactions⟩

end Handler

end FixEngine
