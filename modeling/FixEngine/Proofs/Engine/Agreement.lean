import FixEngine.Proofs.Engine.LogonExchange
import FixEngine.Proofs.Engine.Pairing

/-!
# Agreement of two sides

An initiator resets and the acceptor that it is joined to accepts its logon.
Whatever the order in which messages arrive and the applications send, what is on
its way to a side continues exactly where that side stopped counting, up to the
number that the other side sends next.  So neither side ever finds a number that
it does not expect, and neither asks for anything again nor ends the session.
-/

namespace FixEngine

/-- The action sends a message that neither ends the session nor asks for
messages to be sent again. -/
def Action.IsOrdinary (a : Action) : Prop :=
  ∃ m, a = .send m ∧ m.msgType? ≠ some .logout ∧ m.msgType? ≠ some .resendRequest

namespace Action

variable {m : Message}

theorem IsOrdinary.of_logon (h : m.msgType? = some .logon) : (send m).IsOrdinary := by
  refine ⟨m, rfl, ?_, ?_⟩ <;> rw [h] <;> decide

theorem IsOrdinary.of_isApplication (h : m.IsApplication) : (send m).IsOrdinary := by
  obtain ⟨t, htype, hadministrative⟩ := h
  refine ⟨m, rfl, ?_, ?_⟩
  all_goals
    rw [htype]
    rintro ⟨rfl⟩
    contradiction

end Action

namespace Pairing

variable (p : Pairing)

/-- The initiator resets, the acceptor accepts its logon, and the applications
reply with messages of their own only. -/
structure IsFit : Prop where
  resetOnLogon : p.settings.resetOnLogon = true
  accepts : ∀ now logon, .send logon ∈ (p.connected now).actions →
    (p.services .acceptor).accepts logon = true
  repliesWithin : ∀ side, (p.services side).application.RepliesWithin

/-- The initiator's logon is on its way. -/
structure Asked (l : Link) (logon : Message) : Prop where
  isResetLogon : logon.IsResetLogon p.settings.id
  accepts : (p.services .acceptor).accepts logon = true
  initiator : (l.peer .initiator).handler.IsIn .awaitingLogonAck p.settings.id
  role : (l.peer .initiator).handler.role = .initiator p.settings
  acceptor : l.peer .acceptor = p.start.peer .acceptor
  toInitiator : l.inbox .initiator = []
  toAcceptor : l.inbox .acceptor = [logon]

/-- The acceptor's answer is on its way, and messages of its application may
follow. -/
structure Answered (l : Link) (answer : Message) (rest : List Message) : Prop where
  msgType : answer.msgType? = some .logon
  isApplication : ∀ m ∈ rest, m.IsApplication
  initiator : (l.peer .initiator).handler.IsIn .awaitingLogonAck p.settings.id
  role : (l.peer .initiator).handler.role = .initiator p.settings
  acceptor : (l.peer .acceptor).handler.IsIn .established p.settings.id.reversed
  toInitiator : l.inbox .initiator = answer :: rest
  toAcceptor : l.inbox .acceptor = []

/-- Both sides are established, and only their applications talk. -/
structure Opened (l : Link) : Prop where
  peer : ∀ side, (l.peer side).handler.IsIn .established (p.id side)
  isApplication : ∀ side, ∀ m ∈ l.inbox side, m.IsApplication

/-- How far the exchange of logons has come. -/
inductive Stage (l : Link) : Prop where
  | ready (h : l = p.start)
  | asked (logon : Message) (h : p.Asked l logon)
  | answered (answer : Message) (rest : List Message) (h : p.Answered l answer rest)
  | opened (h : p.Opened l)

/-- What holds of the two sides whatever they do. -/
structure Agrees (l : Link) : Prop where
  stage : p.Stage l
  flows : l.Flows

variable {p} {l : Link} {side : Side} {m : Message} {rest : List Message} {now : Timestamp}

theorem id_other : p.id side.other = (p.id side).reversed := by
  cases side <;> rfl

theorem flows_start : p.start.Flows := by
  intro side
  cases side <;> exact rfl

theorem agrees_start : p.Agrees p.start := ⟨.ready rfl, flows_start⟩

/-- The initiator sends its logon. -/
theorem agrees_connected (hfit : p.IsFit) (now : Timestamp) :
    p.Agrees (p.start.adopt .initiator [] (p.connected now)) ∧
      ∀ a ∈ (p.connected now).actions, a.IsOrdinary := by
  obtain ⟨logon, hactions, hbecomes, hlogon⟩ :=
    Handler.connected_reset (h := p.handler .initiator) (p.servicesAt .initiator now) .empty rfl
      rfl rfl hfit.resetOnLogon rfl
  have hmessages : (p.connected now).actions = [logon].map .send := hactions
  have hpeer : (p.start.peer .initiator).handler.Becomes (p.connected now).handler
      .awaitingLogonAck p.settings.id 1 [logon] := hbecomes
  have haccepts : (p.services .acceptor).accepts logon = true := by
    apply hfit.accepts now
    rw [hmessages]
    exact List.mem_singleton_self _
  constructor
  · rw [Link.adopt_of_actions hmessages]
    constructor
    · exact .asked logon ⟨hlogon, haccepts, hpeer.isIn, hpeer.role, rfl, rfl, rfl⟩
    · exact flows_start.put hpeer rfl
  · rw [hmessages]
    exact List.forall_mem_singleton.2 (.of_logon hlogon.msgType)

/-- The acceptor takes up the logon. -/
theorem Agrees.received_logon (h : p.Agrees l) (hasked : p.Asked l m) :
    p.Agrees (l.adopt .acceptor [] (p.received l .acceptor now m)) ∧
      ∀ a ∈ (p.received l .acceptor now m).actions, a.IsOrdinary := by
  have hreceived : p.received l .acceptor now m =
      (p.handler .acceptor).receive (p.servicesAt .acceptor now) .empty m := by
    rw [received, hasked.acceptor]
    rfl
  have hhandler : (l.peer .acceptor).handler = p.handler .acceptor := by
    rw [hasked.acceptor]
    rfl
  obtain ⟨answer, hactions, hbecomes, hanswer⟩ :=
    Handler.receive_resetLogon (h := p.handler .acceptor) (p.servicesAt .acceptor now) .empty rfl
      rfl rfl rfl hasked.isResetLogon hasked.accepts rfl
  rw [← hreceived] at hactions hbecomes
  have hmessages : (p.received l .acceptor now m).actions = [answer].map .send := hactions
  constructor
  · rw [Link.adopt_of_actions hmessages]
    constructor
    · have htoInitiator : l.inbox .initiator ++ [answer] = [answer] := by
        rw [hasked.toInitiator, List.nil_append]
      exact .answered answer [] ⟨hanswer, by simp, hasked.initiator, hasked.role, hbecomes.isIn,
        htoInitiator, rfl⟩
    · rw [← hhandler] at hbecomes
      apply h.flows.put hbecomes
      have hflow := h.flows .acceptor
      rw [hasked.toAcceptor, hhandler] at hflow
      exact hflow.2
  · rw [hmessages]
    exact List.forall_mem_singleton.2 (.of_logon hanswer)

/-- The initiator takes up the answer. -/
theorem Agrees.received_answer (h : p.Agrees l) (hanswered : p.Answered l m rest) :
    p.Agrees (l.adopt .initiator rest (p.received l .initiator now m)) ∧
      ∀ a ∈ (p.received l .initiator now m).actions, a.IsOrdinary := by
  have hflow := h.flows .initiator
  rw [hanswered.toInitiator] at hflow
  obtain ⟨hactions, hbecomes⟩ :=
    hanswered.initiator.receive_logonAnswer (p.servicesAt .initiator now)
      (l.peer .initiator).shared hanswered.role hanswered.msgType hflow.1
  have hmessages : (p.received l .initiator now m).actions = ([] : List Message).map .send :=
    hactions
  have htoAcceptor : l.inbox Side.initiator.other = [] := hanswered.toAcceptor
  constructor
  · rw [Link.adopt_of_actions hmessages]
    constructor
    · apply Stage.opened
      constructor
      · rw [Side.forall_iff .initiator]
        exact ⟨hbecomes.isIn, hanswered.acceptor⟩
      · rw [Side.forall_iff .initiator, Link.inbox_put_self, Link.inbox_put_other, htoAcceptor]
        exact ⟨hanswered.isApplication, by simp⟩
    · exact h.flows.put hbecomes hflow.2
  · rw [hmessages]
    simp

/-- Once both sides are established, one of them sends messages of its
application. -/
theorem Opened.put {peer : Peer} {inbox messages : List Message} (h : p.Opened l)
    (hpeer : peer.handler.IsIn .established (p.id side))
    (hinbox : ∀ m ∈ inbox, m.IsApplication) (hmessages : ∀ m ∈ messages, m.IsApplication) :
    p.Opened (l.put side peer inbox messages) := by
  constructor
  · rw [Side.forall_iff side, Link.peer_put_self, Link.peer_put_other]
    exact ⟨hpeer, h.peer side.other⟩
  · rw [Side.forall_iff side, Link.inbox_put_self, Link.inbox_put_other]
    exact ⟨hinbox, List.forall_mem_append.2 ⟨h.isApplication side.other, hmessages⟩⟩

/-- A side takes up a message of the application. -/
theorem Agrees.received_application (h : p.Agrees l) (hfit : p.IsFit) (hopened : p.Opened l)
    (hinbox : l.inbox side = m :: rest) :
    p.Agrees (l.adopt side rest (p.received l side now m)) ∧
      ∀ a ∈ (p.received l side now m).actions, a.IsOrdinary := by
  have hflow := h.flows side
  have hside := hopened.isApplication side
  rw [hinbox] at hflow
  rw [hinbox, List.forall_mem_cons] at hside
  obtain ⟨hm, hrest⟩ := hside
  obtain ⟨messages, hactions, hbecomes, happlication⟩ :=
    (hopened.peer side).receive_application (p.servicesAt side now) (l.peer side).shared
      (hfit.repliesWithin side) hm hflow.1
  have hmessages : (p.received l side now m).actions = messages.map .send := hactions
  constructor
  · rw [Link.adopt_of_actions hmessages]
    constructor
    · exact .opened (hopened.put hbecomes.isIn hrest happlication)
    · exact h.flows.put hbecomes hflow.2
  · rw [hmessages, List.forall_mem_map]
    intro reply hreply
    exact .of_isApplication (happlication reply hreply)

/-- Whichever message arrives next, the sides go on agreeing. -/
theorem Agrees.received (h : p.Agrees l) (hfit : p.IsFit) (now : Timestamp)
    (hinbox : l.inbox side = m :: rest) :
    p.Agrees (l.adopt side rest (p.received l side now m)) ∧
      ∀ a ∈ (p.received l side now m).actions, a.IsOrdinary := by
  cases h.stage with
  | ready hready =>
    rw [hready] at hinbox
    exact absurd hinbox.symm (List.cons_ne_nil m rest)
  | asked logon hasked =>
    cases side with
    | initiator =>
      rw [hasked.toInitiator] at hinbox
      contradiction
    | acceptor =>
      obtain ⟨rfl, rfl⟩ := List.cons.inj (hasked.toAcceptor.symm.trans hinbox)
      exact h.received_logon hasked
  | answered answer later hanswered =>
    cases side with
    | initiator =>
      obtain ⟨rfl, rfl⟩ := List.cons.inj (hanswered.toInitiator.symm.trans hinbox)
      exact h.received_answer hanswered
    | acceptor =>
      rw [hanswered.toAcceptor] at hinbox
      contradiction
  | opened hopened => exact h.received_application hfit hopened hinbox

/-- Whenever an application sends, the sides go on agreeing. -/
theorem Agrees.stamped {number : UInt32} {after : Handler} {stamped : Message} (h : p.Agrees l)
    (hm : m.IsApplication)
    (hstamp : (l.peer side).handler.stamp now m = ⟨.ok number, after, stamped⟩) :
    p.Agrees (l.put side ⟨after, (l.peer side).shared⟩ (l.inbox side) [stamped]) := by
  have hphase := Handler.established_of_stamp hstamp
  cases h.stage with
  | ready hready =>
    rw [hready] at hphase
    cases side <;> contradiction
  | asked logon hasked =>
    cases side with
    | initiator =>
      rw [hasked.initiator.phase] at hphase
      contradiction
    | acceptor =>
      rw [hasked.acceptor] at hphase
      contradiction
  | answered answer later hanswered =>
    cases side with
    | initiator =>
      rw [hanswered.initiator.phase] at hphase
      contradiction
    | acceptor =>
      obtain ⟨hbecomes, hstamped⟩ := hanswered.acceptor.stamp_application hm hstamp
      have hlater : ∀ m ∈ later ++ [stamped], m.IsApplication :=
        List.forall_mem_append.2
          ⟨hanswered.isApplication, List.forall_mem_singleton.2 hstamped⟩
      have htoInitiator : l.inbox .initiator ++ [stamped] = answer :: (later ++ [stamped]) := by
        rw [hanswered.toInitiator, List.cons_append]
      constructor
      · exact .answered answer (later ++ [stamped]) ⟨hanswered.msgType, hlater,
          hanswered.initiator, hanswered.role, hbecomes.isIn, htoInitiator, hanswered.toAcceptor⟩
      · exact h.flows.put hbecomes (h.flows .acceptor)
  | opened hopened =>
    obtain ⟨hbecomes, hstamped⟩ := (hopened.peer side).stamp_application hm hstamp
    constructor
    · exact .opened (hopened.put hbecomes.isIn (hopened.isApplication side)
        (List.forall_mem_singleton.2 hstamped))
    · exact h.flows.put hbecomes (h.flows side)

/-- A step keeps the sides in agreement, and its actions are ordinary. -/
theorem Step.agrees {l' : Link} {actions : List Action} (hstep : p.Step l actions l')
    (hfit : p.IsFit) (h : p.Agrees l) : p.Agrees l' ∧ ∀ a ∈ actions, a.IsOrdinary := by
  cases hstep with
  | connect now => exact agrees_connected hfit now
  | deliver side now hinbox => exact h.received hfit now hinbox
  | stamp side now hm hstamp => exact ⟨h.stamped hm hstamp, by simp⟩

theorem Reachable.agrees (hl : p.Reachable l) (hfit : p.IsFit) : p.Agrees l := by
  induction hl with
  | start => exact agrees_start
  | step _ hstep ih => exact (hstep.agrees hfit ih).1

/-- Established sides hold the identities that the pairing gives them. -/
theorem Agrees.sessionId (h : p.Agrees l)
    (hphase : ∀ side, (l.peer side).handler.phase = .established) :
    (l.peer side).handler.sessionId? = some (p.id side) := by
  have hinitiator := hphase .initiator
  cases h.stage with
  | ready hready =>
    rw [hready] at hinitiator
    contradiction
  | asked logon hasked =>
    rw [hasked.initiator.phase] at hinitiator
    contradiction
  | answered answer later hanswered =>
    rw [hanswered.initiator.phase] at hinitiator
    contradiction
  | opened hopened => exact (hopened.peer side).sessionId

/-- Whatever the two sides do, the numbers on their way to a side are the
consecutive ones from the number that it expects to the one before the number
that the other side sends next, no side asks for anything again or ends the
session, and two established sides name the session as each other's reverse. -/
theorem reachable_agreement (hfit : p.IsFit) (hl : p.Reachable l) :
    l.Flows ∧ (∀ actions l', p.Step l actions l' → ∀ a ∈ actions, a.IsOrdinary) ∧
      ((∀ side, (l.peer side).handler.phase = .established) →
        ∀ side, ∃ id, (l.peer side).handler.sessionId? = some id ∧
          (l.peer side.other).handler.sessionId? = some id.reversed) := by
  have hagrees := hl.agrees hfit
  refine ⟨hagrees.flows, ?_, ?_⟩
  · intro actions l' hstep
    exact (hstep.agrees hfit hagrees).2
  · intro hphase side
    refine ⟨p.id side, hagrees.sessionId hphase, ?_⟩
    rw [← id_other]
    exact hagrees.sessionId hphase

/-- Two engines of which one acts upon unexpected numbers. -/
def sample : Pairing where
  settings :=
    { Settings.ofId "FIX.4.4" { senderCompId := "CLIENT", targetCompId := "SERVER" } with
      resetOnLogon := true }
  strict := true
  owner _ := 1
  channel _ := none
  services _ := ⟨.silent, .acceptAll, .epoch, .fresh⟩

theorem isFit_sample : sample.IsFit where
  resetOnLogon := rfl
  accepts _ _ _ := rfl
  repliesWithin _ := by
    intro events id m replies hanswer reply hreply
    cases hanswer
    contradiction

/-- The acceptor's application sends before its answer to the logon has arrived. -/
theorem reachable_agreement_sample :
    ∃ l, sample.Reachable l ∧ (∀ side, (l.peer side).handler.phase = .established) ∧
      (l.inbox .initiator).map (·.header.msgSeqNum) = [some 2] ∧ l.Flows ∧
      (∀ actions l', sample.Step l actions l' → ∀ a ∈ actions, a.IsOrdinary) ∧
      ∀ side, ∃ id, (l.peer side).handler.sessionId? = some id ∧
        (l.peer side.other).handler.sessionId? = some id.reversed := by
  have hnews : (Message.ofType .news []).IsApplication := ⟨.news, rfl, rfl⟩
  have hasked := Reachable.start.step (Step.connect (p := sample) .epoch)
  have hanswered := hasked.step (.deliver .acceptor .epoch rfl)
  have hsent := hanswered.step (.stamp .acceptor .epoch hnews rfl)
  have hopened := hsent.step (.deliver .initiator .epoch rfl)
  obtain ⟨hflows, hordinary, hids⟩ := reachable_agreement isFit_sample hopened
  refine ⟨_, hopened, ?_, rfl, hflows, hordinary, hids ?_⟩
  all_goals
    rw [Side.forall_iff .initiator]
    exact ⟨rfl, rfl⟩

end Pairing

end FixEngine
