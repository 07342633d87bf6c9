import FixEngine.Proofs.Engine.Sending

/-!
# Logons that reset both sequences

An initiator that resets asks for both sequences to begin at one.  The acceptor
takes up its logon under the number one whatever numbers it would otherwise
begin with, and answers with a logon under the same number.
-/

namespace FixEngine

/-- A logon with the number one that asks for both sequences to begin anew. -/
structure Message.IsResetLogon (m : Message) (id : SessionId) : Prop where
  msgType : m.msgType? = some .logon
  msgSeqNum : m.header.msgSeqNum = some 1
  reset : m.flag? Tag.resetSeqNumFlag = some true
  /-- The side that receives the message sees the identity reversed. -/
  inbound : SessionId.ofInbound m.header = id.reversed

namespace Handler

variable {h : Handler} (services : Services) (shared : Shared) {settings : Settings}
  {m : Message} {id : SessionId}

/-- The initiator sends a logon that resets. -/
theorem connected_reset (hrole : h.role = .initiator settings)
    (hsession : h.session = none) (hresend : h.resendUntil = none)
    (hreset : settings.resetOnLogon = true)
    (hfree : shared.sessions.find? settings.id = none) :
    ∃ logon, (h.connected services shared).actions = [.send logon] ∧
      h.Becomes (h.connected services shared).handler .awaitingLogonAck settings.id 1 [logon] ∧
      logon.IsResetLogon settings.id := by
  let session := Session.start settings.id settings.beginString 1 1
  let plain := Admin.logon settings.heartbeatSeconds true
  let credentials :=
    Admin.optionalText Tag.username (settings.username.filter (!·.isEmpty))
      ++ Admin.optionalText Tag.password (settings.password.filter (!·.isEmpty))
  let logon : Message := { plain with body := plain.body ++ credentials }
  let stamped := session.stamp services.now logon
  have hclaim : shared.sessions.claim settings.id h.owner =
      (shared.sessions.insert settings.id h.owner, h.owner, true) := by
    simp only [Directory.claim, hfree]
  have hregister : (Turn.start h shared).register? session =
      some ⟨{ h with session := some session },
        { shared with sessions := shared.sessions.insert settings.id h.owner }, []⟩ := by
    have hclaim' : (Turn.start h shared).shared.sessions.claim session.id
        (Turn.start h shared).handler.owner =
          (shared.sessions.insert settings.id h.owner, h.owner, true) := hclaim
    simp only [Turn.register?, hclaim']
    rfl
  have hbegin : (if settings.resetOnLogon then session else
      Session.start settings.id settings.beginString (services.numbering.outgoing settings.id)
        (services.numbering.incoming settings.id)) = session := by
    rw [hreset, if_pos rfl]
  have hconnected : h.connected services shared =
      ⟨{ h with session := some stamped.1, phase := .awaitingLogonAck },
        { shared with sessions := shared.sessions.insert settings.id h.owner },
        [.send stamped.2]⟩ := by
    have hstart : h.connected services shared =
        (Turn.start h shared).sendLogon services settings := by
      simp only [connected, hrole]
    rw [hstart, Turn.sendLogon, hbegin, hregister, hreset]
    rfl
  rw [hconnected]
  refine ⟨stamped.2, rfl, ⟨⟨rfl, rfl, hresend⟩, rfl, rfl, ?_⟩, rfl, rfl, ?_, rfl⟩
  · rw [nextNumber_of_none hsession]
    exact .singleton rfl
  · rfl

/-- The acceptor takes up a logon that resets and answers with a logon. -/
theorem receive_resetLogon (hphase : h.phase = .awaitingLogon) (hrole : h.role = .acceptor)
    (hsession : h.session = none) (hresend : h.resendUntil = none) (hm : m.IsResetLogon id)
    (haccepts : services.accepts m = true)
    (hfree : shared.sessions.find? id.reversed = none) :
    ∃ answer, (h.receive services shared m).actions = [.send answer] ∧
      h.Becomes (h.receive services shared m).handler .established id.reversed 2 [answer] ∧
      answer.msgType? = some .logon := by
  let session := Session.start id.reversed m.header.beginString 1 1
  let counted : Session := { session with counters := ⟨1, 2⟩ }
  let answer := Admin.logon ((m.integer? Tag.heartBtInt).getD Turn.usualHeartbeat) true
  let stamped := counted.stamp services.now answer
  have hregister : (Turn.start h shared).register? session =
      some ⟨{ h with session := some session },
        { shared with sessions := shared.sessions.insert id.reversed h.owner }, []⟩ := by
    have hclaim : (Turn.start h shared).shared.sessions.claim session.id
        (Turn.start h shared).handler.owner =
          (shared.sessions.insert id.reversed h.owner, h.owner, true) := by
      have hfree' : (Turn.start h shared).shared.sessions.find? session.id = none := hfree
      simp only [Directory.claim, hfree']
      rfl
    simp only [Turn.register?, hclaim]
    rfl
  have hlogon : session.receiveLogon 1 = (.inOrder, counted) := rfl
  have hreceive : h.receive services shared m =
      (Turn.start h shared).acceptLogon services m := by
    simp only [receive, hphase, hrole, hm.msgType, if_true]
  have haccept : (Turn.start h shared).acceptLogon services m =
      (((⟨{ h with session := some session },
        { shared with sessions := shared.sessions.insert id.reversed h.owner }, []⟩ :
          Turn).withSession counted).send services.now answer).establish id.reversed := by
    have hregister' : (Turn.start h shared).register?
        (Session.start id.reversed m.header.beginString 1 1) =
          some ⟨{ h with session := some session },
            { shared with sessions := shared.sessions.insert id.reversed h.owner }, []⟩ :=
      hregister
    simp only [Turn.acceptLogon, haccepts, Bool.not_true, Bool.false_eq_true, if_false,
      hm.msgSeqNum, hm.inbound, hm.reset, Option.getD_some, if_true]
    rw [hregister']
    rfl
  rw [hreceive, haccept]
  refine ⟨stamped.2, rfl, ⟨⟨rfl, rfl, hresend⟩, rfl, rfl, ?_⟩, rfl⟩
  rw [nextNumber_of_none hsession]
  exact .singleton rfl

/-- The initiator is established by the expected answer and sends nothing. -/
theorem IsIn.receive_logonAnswer (h' : h.IsIn .awaitingLogonAck id)
    (hrole : h.role = .initiator settings) (htype : m.msgType? = some .logon)
    (hnumber : m.header.msgSeqNum = some h.expects) :
    (h.receive services shared m).actions = [] ∧
      h.Becomes (h.receive services shared m).handler .established id (h.expects + 1) [] := by
  obtain ⟨s, hsession, hid⟩ := h'.exists_session
  rw [expects_of_session hsession] at hnumber
  have hlogon : s.receiveLogon s.counters.nextIncoming = (.inOrder, s.counted) := by
    simp only [Session.receiveLogon, Session.receive_expected]
  have hreceive : h.receive services shared m =
      (Turn.start h shared).takeLogonAnswer services m := by
    simp only [receive, h'.phase, hrole, htype]
  have hstart : (Turn.start h shared).handler.session = some s := hsession
  simp only [hreceive, Turn.takeLogonAnswer, hstart, hnumber, hlogon]
  refine ⟨rfl, ⟨rfl, congrArg some hid, h'.resendUntil⟩, rfl, ?_, ?_⟩
  · rw [expects_of_session hsession]
    rfl
  · rw [nextNumber_of_session hsession]
    rfl

end Handler

end FixEngine
