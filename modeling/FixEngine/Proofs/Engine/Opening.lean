import FixEngine.Proofs.Engine.Traffic

/-!
# How a session is opened

`Turn.Accepts` lists what becomes of a logon at the accepting side,
`Turn.Asks` what the initiating side does when its connection is up, and
`Turn.Hears` what becomes of the answer to its logon.  `Handler.Receives` lists
what becomes of any message that arrives.  What is said about the opening of a
session is shown for each entry of these lists, and nobody opens the definitions
again.
-/

namespace FixEngine

namespace Session

/-- The session for which an accepting side takes up a logon. -/
def ofLogon (services : Services) (logon : Message) : Session :=
  .start (SessionId.ofInbound logon.header) logon.header.beginString 1
    (if (logon.flag? Tag.resetSeqNumFlag).getD false then 1
    else services.numbering.incoming (SessionId.ofInbound logon.header))

/-- The session that an initiating side asks for. -/
def ofSettings (services : Services) (settings : Settings) : Session :=
  if settings.resetOnLogon then .start settings.id settings.beginString 1 1
  else
    .start settings.id settings.beginString (services.numbering.outgoing settings.id)
      (services.numbering.incoming settings.id)

/-- The session after a logon ahead of the expected number. -/
def skipped (s : Session) (received : UInt32) : Session :=
  s.advance (if received = 0xFFFFFFFF then received else received + 1)

/-- The number of a logon is the expected one, or below it, or above it. -/
theorem receiveLogon_cases (s : Session) (n : UInt32) :
    (n = s.counters.nextIncoming ∧ s.receiveLogon n = (.inOrder, s.counted)) ∨
    (n < s.counters.nextIncoming ∧
      s.receiveLogon n = (.tooLow s.counters.nextIncoming n, s)) ∨
    (s.counters.nextIncoming < n ∧
      s.receiveLogon n = (.gap s.counters.nextIncoming n, s.skipped n)) := by
  rcases s.receive_cases n with ⟨hn, hreceive⟩ | ⟨hlow, hreceive⟩ | ⟨hhigh, hreceive⟩
  · exact .inl ⟨hn, by simp only [receiveLogon, hreceive]⟩
  · exact .inr (.inl ⟨hlow, by simp only [receiveLogon, hreceive]⟩)
  · exact .inr (.inr ⟨hhigh, by simp only [receiveLogon, hreceive]; rfl⟩)

end Session

namespace Admin

/-- The answer of an accepting side to a logon. -/
def logonAnswer (logon : Message) : Message :=
  Admin.logon ((logon.integer? Tag.heartBtInt).getD Turn.usualHeartbeat)
    ((logon.flag? Tag.resetSeqNumFlag).getD false)

/-- The logon of an initiating side. -/
def logonOf (settings : Settings) : Message :=
  let plain := Admin.logon settings.heartbeatSeconds settings.resetOnLogon
  let credentials :=
    optionalText Tag.username (settings.username.filter (!·.isEmpty))
      ++ optionalText Tag.password (settings.password.filter (!·.isEmpty))
  { plain with body := plain.body ++ credentials }

end Admin

namespace Turn

/-! ### Registration -/

section

variable {t : Turn} {s : Session}

/-- The turn after a session has been registered for the handler. -/
def registered (t : Turn) (s : Session) : Turn :=
  { t with
    handler.session := some s
    shared.sessions := t.shared.sessions.insert s.id t.handler.owner }

/-- The identity of a session is held by nobody. -/
def IsFree (t : Turn) (s : Session) : Prop := t.shared.sessions.find? s.id = none

theorem register?_of_isFree (h : t.IsFree s) : t.register? s = some (t.registered s) := by
  have hfree : t.shared.sessions.find? s.id = none := h
  simp only [register?, Directory.claim, hfree]
  rfl

theorem register?_of_not_isFree (h : ¬t.IsFree s) : t.register? s = none := by
  obtain ⟨holder, hheld⟩ := Option.ne_none_iff_exists'.1 h
  simp only [register?, Directory.claim, hheld]

end

/-! ### The accepting side -/

/-- What becomes of a logon at the side that accepts a connection. -/
inductive Accepts (t : Turn) (services : Services) (logon : Message) : Turn → Prop
  | unknown (haccepts : services.accepts logon = false) :
      Accepts t services logon (t.close .authenticationFailed)
  | unnumbered (haccepts : services.accepts logon = true)
      (hnumber : logon.header.msgSeqNum = none) :
      Accepts t services logon (t.close .missingSequenceNumber)
  | duplicate {n : UInt32} (haccepts : services.accepts logon = true)
      (hnumber : logon.header.msgSeqNum = some n)
      (hheld : ¬t.IsFree (.ofLogon services logon)) :
      Accepts t services logon
        (({ t with handler.logoutSent := true }.act (.send
          ((Session.ofLogon services logon).stamp services.now
            (Admin.logout (some DisconnectReason.duplicateSession.message))).2)).close
              .duplicateSession)
  | inOrder (haccepts : services.accepts logon = true)
      (hfree : t.IsFree (.ofLogon services logon))
      (hnumber :
        logon.header.msgSeqNum = some (Session.ofLogon services logon).counters.nextIncoming) :
      Accepts t services logon
        ((((t.registered (.ofLogon services logon)).withSession
          (Session.ofLogon services logon).counted).send services.now
            (Admin.logonAnswer logon)).establish (Session.ofLogon services logon).id)
  | ahead {n : UInt32} (haccepts : services.accepts logon = true)
      (hfree : t.IsFree (.ofLogon services logon)) (hnumber : logon.header.msgSeqNum = some n)
      (hhigh : (Session.ofLogon services logon).counters.nextIncoming < n) :
      Accepts t services logon
        (((((t.registered (.ofLogon services logon)).withSession
          ((Session.ofLogon services logon).skipped n)).send services.now
            (Admin.logonAnswer logon)).send services.now
              (Admin.resendRequest (Session.ofLogon services logon).counters.nextIncoming
                (n - 1))).establish (Session.ofLogon services logon).id)
  | stale {n : UInt32} (haccepts : services.accepts logon = true)
      (hfree : t.IsFree (.ofLogon services logon)) (hnumber : logon.header.msgSeqNum = some n)
      (hlow : n < (Session.ofLogon services logon).counters.nextIncoming) :
      Accepts t services logon
        ((((t.registered (.ofLogon services logon)).withSession
          (.ofLogon services logon)).refuse services.now
            (.sequenceTooLow (Session.ofLogon services logon).counters.nextIncoming n)).release)

theorem accepts_acceptLogon (t : Turn) (services : Services) (logon : Message) :
    t.Accepts services logon (t.acceptLogon services logon) := by
  unfold acceptLogon
  split
  · next hunknown =>
    exact .unknown (by simpa using hunknown)
  · next hknown =>
    have haccepts : services.accepts logon = true := by simpa using hknown
    cases hnumber : logon.header.msgSeqNum with
    | none => exact .unnumbered haccepts hnumber
    | some n =>
      dsimp only
      rw [← Session.ofLogon]
      by_cases hfree : t.IsFree (.ofLogon services logon)
      · rw [register?_of_isFree hfree]
        rcases (Session.ofLogon services logon).receiveLogon_cases n with
          ⟨rfl, hreceive⟩ | ⟨hlow, hreceive⟩ | ⟨hhigh, hreceive⟩
        all_goals rw [hreceive]
        · exact .inOrder haccepts hfree hnumber
        · exact .stale haccepts hfree hnumber hlow
        · exact .ahead haccepts hfree hnumber hhigh
      · rw [register?_of_not_isFree hfree]
        exact .duplicate haccepts hnumber hfree

/-! ### The initiating side -/

/-- What the side that initiates a connection does when it is up. -/
inductive Asks (t : Turn) (services : Services) (settings : Settings) : Turn → Prop
  | duplicate (hheld : ¬t.IsFree (.ofSettings services settings)) :
      Asks t services settings (t.close .duplicateSession)
  | asked (hfree : t.IsFree (.ofSettings services settings)) :
      Asks t services settings
        { (t.registered (.ofSettings services settings)).send services.now
            (Admin.logonOf settings) with
          handler.phase := .awaitingLogonAck }

theorem asks_sendLogon (t : Turn) (services : Services) (settings : Settings) :
    t.Asks services settings (t.sendLogon services settings) := by
  unfold sendLogon
  dsimp only
  rw [← Session.ofSettings]
  by_cases hfree : t.IsFree (.ofSettings services settings)
  · rw [register?_of_isFree hfree]
    exact .asked hfree
  · rw [register?_of_not_isFree hfree]
    exact .duplicate hfree

/-- What becomes of the answer to the logon of the initiating side. -/
inductive Hears (t : Turn) (services : Services) (logon : Message) : Turn → Prop
  | ignored (hsession : t.handler.session = none) : Hears t services logon t
  | unnumbered {s : Session} (hsession : t.handler.session = some s)
      (hnumber : logon.header.msgSeqNum = none) :
      Hears t services logon (t.close .missingSequenceNumber)
  | inOrder {s : Session} (hsession : t.handler.session = some s)
      (hnumber : logon.header.msgSeqNum = some s.counters.nextIncoming) :
      Hears t services logon ((t.withSession s.counted).establish s.id)
  | ahead {s : Session} {n : UInt32} (hsession : t.handler.session = some s)
      (hnumber : logon.header.msgSeqNum = some n) (hhigh : s.counters.nextIncoming < n) :
      Hears t services logon
        (((t.withSession (s.skipped n)).establish s.id).send services.now
          (Admin.resendRequest s.counters.nextIncoming (n - 1)))
  | stale {s : Session} {n : UInt32} (hsession : t.handler.session = some s)
      (hnumber : logon.header.msgSeqNum = some n) (hlow : n < s.counters.nextIncoming) :
      Hears t services logon
        ((t.withSession s).refuse services.now (.sequenceTooLow s.counters.nextIncoming n))

theorem hears_takeLogonAnswer (t : Turn) (services : Services) (logon : Message) :
    t.Hears services logon (t.takeLogonAnswer services logon) := by
  unfold takeLogonAnswer
  cases hsession : t.handler.session with
  | none => exact .ignored hsession
  | some s =>
    cases hnumber : logon.header.msgSeqNum with
    | none => exact .unnumbered hsession hnumber
    | some n =>
      rcases s.receiveLogon_cases n with ⟨rfl, hreceive⟩ | ⟨hlow, hreceive⟩ | ⟨hhigh, hreceive⟩
      all_goals simp only [hreceive]
      · exact .inOrder hsession hnumber
      · exact .stale hsession hnumber hlow
      · exact .ahead hsession hnumber hhigh

end Turn

/-! ### Arriving messages -/

namespace Handler

/-- What becomes of a message that arrives at a handler. -/
inductive Receives (h : Handler) (services : Services) (shared : Shared) (m : Message) :
    Turn → Prop
  | traffic {t : Turn} (hphase : h.phase = .established)
      (ht : (Turn.start h shared).Treated services m t) : Receives h services shared m t
  | logon {t : Turn} (hphase : h.phase = .awaitingLogon) (hrole : h.role = .acceptor)
      (htype : m.msgType? = some .logon) (ht : (Turn.start h shared).Accepts services m t) :
      Receives h services shared m t
  | answer {t : Turn} (hphase : h.phase = .awaitingLogonAck)
      (ht : (Turn.start h shared).Hears services m t) : Receives h services shared m t
  | closed (reason : DisconnectReason) :
      Receives h services shared m ((Turn.start h shared).close reason)
  | ignored : Receives h services shared m (Turn.start h shared)

theorem receives_receive (h : Handler) (services : Services) (shared : Shared) (m : Message) :
    h.Receives services shared m (h.receive services shared m) := by
  unfold receive
  split
  · next hphase => exact .traffic hphase ((Turn.start h shared).treated_traffic services m)
  · next hphase hrole =>
    split
    · next htype =>
      exact .logon hphase hrole htype ((Turn.start h shared).accepts_acceptLogon services m)
    · exact .closed .logonExpected
  · next settings hphase hrole =>
    split
    · exact .answer hphase ((Turn.start h shared).hears_takeLogonAnswer services m)
    · exact .closed .logout
    · exact .closed .logonExpected
  · exact .ignored

end Handler

end FixEngine
