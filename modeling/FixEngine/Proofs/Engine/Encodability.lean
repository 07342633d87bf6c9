import FixEngine.Proofs.Engine.Drafts
import FixEngine.Proofs.Engine.Naming

/-!
# Whether the messages of a handler may be written

A session that is established has handed out a logon, but whether the other side gets it
hangs on the names under which the handler speaks.  Nobody looks at them before they are
used: a logon is taken up that lacks the name of a company, and settings pass their check
that hold a delimiter.  `Handler.encodes_iff` says that nothing else keeps a message from
being written that a handler builds itself.
-/

namespace FixEngine

namespace Life

/-- Every message that arrives was read from bytes. -/
def IsRead (life : Life) : Prop :=
  ∀ input ∈ life.inputs, ∀ m, input.message? = some m →
    ∃ (d : Dictionary) (bytes : Bytes), .ok m ∈ Message.decodeAll d bytes

theorem IsRead.isReceived {life : Life} (hread : life.IsRead) {input : Input} {m : Message}
    (hinput : input ∈ life.inputs) (hm : input.message? = some m) : m.IsReceived := by
  obtain ⟨d, bytes, hmem⟩ := hread input hinput m hm
  exact Message.isReceived_of_mem_decodeAll hmem

end Life

namespace Role

/-- The names under which a handler of a role speaks in its life are there, and hold no
delimiter. -/
def GivesNames (life : Life) : Role → Prop
  | .acceptor => ∃ logon, life.firstMessage? = some logon ∧
      logon.header.senderCompId ≠ "" ∧ logon.header.targetCompId ≠ ""
  | .initiator settings => settings.IsUnbroken

/-- What a handler of a role says of the user in a call holds no delimiter.  It does so
in the logon with which it initiates a session. -/
def GivesCredentials (call : Call) : Role → Prop
  | .acceptor => True
  | .initiator settings => ∀ services shared, call = .connected services shared →
      ∀ text ∈ settings.credentials, Utf8.delimiter ∉ text.toList

theorem givesCredentials_input (role : Role) (input : Input) :
    role.GivesCredentials (.input input) := by
  cases role with
  | acceptor => trivial
  | initiator settings => exact fun _ _ h => Call.noConfusion h

theorem SpeaksAs.isWritable_iff {role : Role} {life : Life} {s : Session}
    (hspeaks : role.SpeaksAs life s) (hread : life.IsRead)
    (hvalid : ∀ settings, role = .initiator settings → settings.validate = .ok ()) :
    s.IsWritable ↔ role.GivesNames life := by
  cases hspeaks with
  | @acceptor services logon hfirst =>
    obtain ⟨input, hinput, hm⟩ := List.exists_of_findSome?_eq_some hfirst
    have hlogon := hread.isReceived hinput hm
    rw [Session.isWritable_ofLogon_iff services hlogon]
    constructor
    · exact fun h => ⟨logon, hfirst, h⟩
    · rintro ⟨logon', hfirst', h⟩
      cases hfirst.symm.trans hfirst'
      exact h
  | initiator settings => exact Settings.isWritable_ofSettings_iff life.services (hvalid _ rfl)

end Role

namespace Phase

/-- A logon has been handed out, and the connection goes on. -/
def FollowsLogon (phase : Phase) : Prop := phase = .awaitingLogonAck ∨ phase = .established

theorem not_followsLogon_closed : ¬closed.FollowsLogon := by
  rintro (h | h)
  · contradiction
  · contradiction

end Phase

namespace Handler

/-- The handler builds a message itself and hands it out in a call: it is no reply of the
application, and the application does not send it. -/
structure Originates (h : Handler) (call : Call) (out : Message) : Prop where
  sends : .send out ∈ h.returns call
  not_reply : ¬h.RepliesWith call out

/-- What a handler may build in a call. -/
inductive Drafts (h : Handler) : Call → Message → Prop
  | logon {settings : Settings} (hrole : h.role = .initiator settings) (services : Services)
      (shared : Shared) : Drafts h (.connected services shared) (Admin.logonOf settings)
  | answer {m draft : Message} (hbuilds : Turn.Builds m draft) (services : Services)
      (shared : Shared) : Drafts h (.input (.message services shared m)) draft

/-- The handler hands out a logon in a run of calls. -/
def HandsLogon (h : Handler) (calls : List Call) : Prop :=
  ∃ before call after logon, calls = before ++ call :: after ∧
    (h.afterCalls before).Originates call logon ∧ logon.msgType? = some .logon

variable {h : Handler} {call : Call} {life : Life} {services : Services} {shared : Shared}
  {m out : Message} {t : Turn}

/-! ### Messages of the handler -/

/-- Without a session the application is not asked for replies. -/
theorem originates_of_session_none (hsession : h.session = none)
    (hsends : .send out ∈ h.returns call) : h.Originates call out where
  sends := hsends
  not_reply := by
    rintro ⟨hsession', -, -, -⟩
    exact Option.some_ne_none _ (hsession'.symm.trans hsession)

/-- What a handler hands out on its own is a draft that it has stamped. -/
theorem Originates.exists_draft (horiginates : h.Originates call out) :
    ∃ draft, h.Drafts call draft ∧ ∃ (s : Session) (now : Timestamp),
      out = (s.stamp now draft).2 := by
  have hsends := horiginates.sends
  cases call with
  | connected services shared =>
    cases hrole : h.role with
    | acceptor =>
      rw [returns, connected_acceptor hrole] at hsends
      exact absurd hsends List.not_mem_nil
    | initiator settings =>
      have hasks := (Turn.start h shared).asks_sendLogon services settings
      rw [returns, connected_initiator hrole] at hsends
      obtain ⟨draft, rfl, s, hout⟩ := hasks.utters.exists_draft rfl hsends
      exact ⟨_, .logon hrole services shared, s, services.now, hout⟩
  | input input =>
    cases input with
    | stamp now m => exact absurd hsends List.not_mem_nil
    | message services shared m =>
      have hsends' : .send out ∈ (h.receive services shared m).actions := hsends
      cases (h.receives_receive services shared m).authored with
      | goesOn _ hutters =>
        obtain ⟨draft, hdraft, s, hout⟩ := hutters.exists_draft rfl hsends'
        exact ⟨draft, .answer hdraft.1 services shared, s, services.now, hout⟩
      | closes _ hutters =>
        obtain ⟨draft, hdraft, s, hout⟩ := hutters.exists_draft rfl hsends'
        exact ⟨draft, .answer hdraft services shared, s, services.now, hout⟩
      | replies hsession hanswer htold _ hutters =>
        obtain ⟨reply, hreply, s, rfl⟩ := hutters.exists_draft rfl hsends'
        exact absurd (.reply hsession htold.toldSince_eq hanswer hreply) horiginates.not_reply
  | disconnected shared =>
    rw [returns, disconnected, Turn.actions_disconnect] at hsends
    exact absurd hsends List.not_mem_nil

/-! ### Logons -/

theorem HandsLogon.append {calls : List Call} (hlogon : h.HandsLogon calls) (more : List Call) :
    h.HandsLogon (calls ++ more) := by
  obtain ⟨before, call, after, logon, rfl, hfacts⟩ := hlogon
  exact ⟨before, call, after ++ more, logon, List.append_assoc .., hfacts⟩

theorem mem_actions_of_send {s : Session} (hsession : t.handler.session = some s)
    (now : Timestamp) (m : Message) : .send (s.stamp now m).2 ∈ (t.send now m).actions := by
  rw [(Turn.sends_send hsession now m).actions]
  exact List.mem_append_right _ List.mem_cons_self

theorem mem_actions_send_of_mem {action : Action} (haction : action ∈ t.actions)
    (now : Timestamp) (m : Message) : action ∈ (t.send now m).actions := by
  obtain ⟨messages, hactions, -⟩ := t.speaks_send now m
  rw [hactions]
  exact List.mem_append_left _ haction

/-- A logon that is taken up is answered with a logon, or the connection is closed. -/
theorem exists_logon_of_accepts (haccepts : (Turn.start h shared).Accepts services m t)
    (hphase : t.handler.phase.FollowsLogon) :
    ∃ logon, .send logon ∈ t.actions ∧ logon.msgType? = some .logon := by
  cases haccepts with
  | unknown | unnumbered | duplicate => exact absurd hphase Phase.not_followsLogon_closed
  | stale =>
    rw [Turn.phase_release] at hphase
    exact absurd hphase Phase.not_followsLogon_closed
  | inOrder =>
    refine ⟨_, mem_actions_of_send rfl services.now (Admin.logonAnswer m), ?_⟩
    rfl
  | @ahead n =>
    have hanswer := mem_actions_of_send (t := ((Turn.start h shared).registered
      (.ofLogon services m)).withSession ((Session.ofLogon services m).skipped n)) rfl services.now
      (Admin.logonAnswer m)
    exact ⟨_, mem_actions_send_of_mem hanswer services.now _, rfl⟩

/-- A handler that waits for the answer to its logon has handed it out. -/
theorem exists_logon_of_asks {settings : Settings}
    (hasks : (Turn.start h shared).Asks services settings t)
    (hphase : t.handler.phase.FollowsLogon) :
    ∃ logon, .send logon ∈ t.actions ∧ logon.msgType? = some .logon := by
  cases hasks with
  | duplicate => exact absurd hphase Phase.not_followsLogon_closed
  | asked => exact ⟨_, mem_actions_of_send rfl services.now (Admin.logonOf settings), rfl⟩

theorem exists_logon_of_receives (hreceives : h.Receives services shared m t)
    (hbefore : ¬h.phase.FollowsLogon) (hafter : t.handler.phase.FollowsLogon) :
    ∃ logon, .send logon ∈ t.actions ∧ logon.msgType? = some .logon := by
  cases hreceives with
  | traffic hphase => exact absurd (.inr hphase) hbefore
  | logon _ _ _ haccepts => exact exists_logon_of_accepts haccepts hafter
  | answer hphase => exact absurd (.inl hphase) hbefore
  | closed => exact absurd hafter Phase.not_followsLogon_closed
  | ignored => exact absurd hafter hbefore

/-- The application is not told of a message before the session is established. -/
theorem not_repliesWith_of_ne (hphase : h.phase ≠ .established) :
    ¬h.RepliesWith (.input (.message services shared m)) out := by
  rintro ⟨-, htold, -, -⟩
  have htells : h.tells (.input (.message services shared m)) =
      (h.receive services shared m).toldSince shared := rfl
  rw [htells] at htold
  cases (h.receives_receive services shared m).announces hphase with
  | silent hsilent => cases hsilent.toldSince_eq.symm.trans htold
  | begins hbegins => cases hbegins.toldSince_eq.symm.trans htold

/-- A call after which a logon has been handed out, and before which none had, hands it
out. -/
theorem exists_logon_of_followsLogon (hbefore : ¬h.phase.FollowsLogon)
    (hafter : (h.afterCall call).phase.FollowsLogon) :
    ∃ logon, h.Originates call logon ∧ logon.msgType? = some .logon := by
  cases call with
  | connected services shared =>
    cases hrole : h.role with
    | acceptor =>
      rw [afterCall, connected_acceptor hrole] at hafter
      exact absurd hafter hbefore
    | initiator settings =>
      have hasks := (Turn.start h shared).asks_sendLogon services settings
      rw [← connected_initiator hrole] at hasks
      obtain ⟨logon, hsends, htype⟩ := exists_logon_of_asks hasks hafter
      refine ⟨logon, ⟨hsends, ?_⟩, htype⟩
      rintro ⟨⟩
  | input input =>
    cases input with
    | stamp now m =>
      rw [afterCall, phase_stamp] at hafter
      exact absurd hafter hbefore
    | message services shared m =>
      obtain ⟨logon, hsends, htype⟩ :=
        exists_logon_of_receives (h.receives_receive services shared m) hbefore hafter
      exact ⟨logon, ⟨hsends, not_repliesWith_of_ne fun hphase => hbefore (.inr hphase)⟩, htype⟩
  | disconnected shared => exact absurd hafter Phase.not_followsLogon_closed

/-- In the course of a life a logon is handed out before the session is established. -/
theorem handsLogon_of_followsLogon (hnew : h.IsNew) {calls : List Call}
    (hphase : (h.afterCalls calls).phase.FollowsLogon) : h.HandsLogon calls := by
  induction calls using List.reverseRecOn with
  | nil =>
    rcases hphase with hphase | hphase
    all_goals cases hnew <;> contradiction
  | append_singleton earlier call ih =>
    by_cases hearlier : (h.afterCalls earlier).phase.FollowsLogon
    · exact (ih hearlier).append [call]
    · rw [afterCalls_append] at hphase
      obtain ⟨logon, horiginates, htype⟩ := exists_logon_of_followsLogon hearlier hphase
      exact ⟨earlier, call, [], logon, rfl, horiginates, htype⟩

/-! ### Lives -/

/-- In the life of a handler to which messages arrive that were read, what it builds itself
may be written, but for refusals of messages, if and only if the names under which it speaks
are there and hold no delimiter, and neither does what its logon says of the user.  A
session that is established has handed out its logon. -/
theorem encodes_iff (hnew : h.IsNew)
    (hvalid : ∀ settings, h.role = .initiator settings → settings.validate = .ok ())
    (life : Life) (hread : life.IsRead) :
    (∀ before call after out, life.course = before ++ call :: after →
      (h.afterCalls before).Originates call out → out.msgType? ≠ some .businessMessageReject →
        ((∃ bytes, out.encode = .ok bytes) ↔
          h.role.GivesNames life ∧ h.role.GivesCredentials call)) ∧
    ∀ calls, (h.afterCalls calls).phase = .established → h.HandsLogon calls := by
  refine ⟨?_, fun calls hphase => handsLogon_of_followsLogon hnew (.inr hphase)⟩
  intro before call after out hcourse horiginates hown
  obtain ⟨s, hspeaks, hmarks⟩ :=
    exists_speaksAs hnew (mem_messages_of_course hcourse horiginates.sends)
  rw [Message.exists_encode_iff, ← hspeaks.isWritable_iff hread hvalid]
  obtain ⟨draft, hdraft, s', now, rfl⟩ := horiginates.exists_draft
  rcases Life.course_cases hcourse with ⟨rfl, rfl⟩ | ⟨earlier, input, later, hinputs, rfl, rfl⟩
  · cases hdraft with
    | @logon settings hrole =>
      have hinitiates : h.role = .initiator settings := hrole
      rw [Session.isEncodable_stamp_logonOf hmarks, hinitiates]
      refine and_congr_right fun _ => ⟨?_, ?_⟩
      · intro hcredentials _ _ _
        exact hcredentials
      · intro hcredentials
        exact hcredentials _ _ rfl
  · cases hdraft with
    | @answer m _ hbuilds services shared =>
      have hinput : Input.message services shared m ∈ life.inputs := by
        rw [hinputs]
        exact List.mem_append_right _ List.mem_cons_self
      have hm := hread.isReceived hinput rfl
      rw [Session.isEncodable_stamp_of_builds hbuilds hm hown hmarks,
        and_iff_left (h.role.givesCredentials_input _)]

/-- A logon to a server on the wire, with what stands for the sender. -/
def sampleWire (sender : List String) (sum : String) : Bytes :=
  Record.delimited ((["8=FIX.4.4", "35=A"] ++ sender ++
    ["56=SERVER", "34=1", "98=0", "108=30", "10=" ++ sum]).map Utf8.encode)

/-- The logon as it is read. -/
def sampleArrival (sender : String) (sum : UInt8) : Message where
  header :=
    { beginString := "FIX.4.4", msgType := some .logon, senderCompId := sender,
      targetCompId := "SERVER", msgSeqNum := some 1 }
  body := (Admin.logon 30 false).body
  trailer := { checkSum := some sum }

/-- A connection on which a message arrives. -/
def sampleGreeting (m : Message) : Life where
  services := ⟨.silent, .acceptAll, .epoch, .fresh⟩
  shared := .empty
  inputs := [.message ⟨.silent, .acceptAll, .epoch, .fresh⟩ .empty m]
  final := .empty

/-- The answer to the logon. -/
def sampleAnswer (target : String) : Message :=
  ((Session.start { senderCompId := "SERVER", targetCompId := target } "FIX.4.4" 1 1).stamp .epoch
    (Admin.logon 30 false)).2

theorem isRead_sampleGreeting {d : Dictionary} {bytes : Bytes}
    (hm : Message.decodeAll d bytes = [.ok m]) : (sampleGreeting m).IsRead := by
  rintro input hinput m' hm'
  cases List.mem_singleton.1 hinput
  cases hm'
  exact ⟨d, bytes, hm ▸ List.mem_singleton_self _⟩

set_option maxRecDepth 10000 in
/-- The answer to a logon that names both companies is written. -/
theorem encodes_iff_sample :
    ∃ (h : Handler) (life : Life) (before : List Call) (call : Call) (after : List Call)
      (logon : Message), h.IsNew ∧
      (∀ settings, h.role = .initiator settings → settings.validate = .ok ()) ∧ life.IsRead ∧
      life.course = before ++ call :: after ∧ (h.afterCalls before).Originates call logon ∧
      logon.msgType? = some .logon ∧ (∃ bytes, logon.encode = .ok bytes) ∧
      h.HandsLogon (before ++ [call]) := by
  let arrival := sampleArrival "CLIENT" 225
  have hnew : (acceptor true 1 none).IsNew := .acceptor true 1 none
  have hvalid : ∀ settings, (acceptor true 1 none).role = .initiator settings →
      settings.validate = .ok () := nofun
  have hdecode : Message.decodeAll .usual (sampleWire ["49=CLIENT"] "225") = [.ok arrival] := rfl
  have hread := isRead_sampleGreeting hdecode
  have horiginates : ((acceptor true 1 none).afterCalls
      [.connected ⟨.silent, .acceptAll, .epoch, .fresh⟩ .empty]).Originates
        (.input (.message ⟨.silent, .acceptAll, .epoch, .fresh⟩ .empty arrival))
          (sampleAnswer "CLIENT") :=
    originates_of_session_none rfl (List.mem_singleton_self _)
  obtain ⟨hencodes, hlogon⟩ := encodes_iff hnew hvalid (sampleGreeting arrival) hread
  have hwritten := (hencodes [_] _ [] _ rfl horiginates nofun).2
    ⟨⟨arrival, rfl, by decide, by decide⟩, trivial⟩
  exact ⟨_, _, [_], _, [], _, hnew, hvalid, hread, rfl, horiginates, rfl, hwritten, hlogon _ rfl⟩

set_option maxRecDepth 10000 in
/-- The answer to a logon without a sender is not written, although the session is
established, and neither is the logon of settings that pass their check with a delimiter in
the name of a company. -/
theorem exists_logon_not_encoded :
    (∃ (h : Handler) (life : Life) (before : List Call) (call : Call) (after : List Call)
      (logon : Message), h.IsNew ∧ h.role = .acceptor ∧ life.IsRead ∧
      life.course = before ++ call :: after ∧ (h.afterCalls before).Originates call logon ∧
      logon.msgType? = some .logon ∧ (h.afterCalls (before ++ [call])).phase = .established ∧
      logon.encode = .error (.missingField Tag.targetCompId)) ∧
    (∃ (h : Handler) (settings : Settings) (life : Life) (call : Call) (after : List Call)
      (logon : Message), h.IsNew ∧ h.role = .initiator settings ∧ settings.validate = .ok () ∧
      life.IsRead ∧ life.course = call :: after ∧ h.Originates call logon ∧
      logon.msgType? = some .logon ∧
      logon.encode = .error (.invalidValue Tag.senderCompId .containsDelimiter)) := by
  refine ⟨?unnamed, ?broken⟩
  case unnamed =>
    let arrival := sampleArrival "" 119
    have hdecode : Message.decodeAll .usual (sampleWire [] "119") = [.ok arrival] := rfl
    exact ⟨acceptor true 1 none, sampleGreeting arrival, [_], _, [], sampleAnswer "",
      .acceptor true 1 none, rfl, isRead_sampleGreeting hdecode, rfl,
      originates_of_session_none rfl (List.mem_singleton_self _), rfl, rfl, rfl⟩
  case broken =>
    let settings :=
      Settings.ofId "FIX.4.4" { senderCompId := "CLI\x01ENT", targetCompId := "SERVER" }
    let life := sampleGreeting (sampleArrival "CLIENT" 225)
    let logon :=
      ((Session.ofSettings life.services settings).stamp .epoch (Admin.logonOf settings)).2
    have hdecode : Message.decodeAll .usual (sampleWire ["49=CLIENT"] "225") =
        [.ok (sampleArrival "CLIENT" 225)] := rfl
    exact ⟨initiator settings 1 none, settings, life, _, _, logon, .initiator settings 1 none, rfl,
      rfl, isRead_sampleGreeting hdecode, rfl,
      originates_of_session_none rfl (List.mem_singleton_self _), rfl, by decide +kernel⟩

end Handler

end FixEngine
