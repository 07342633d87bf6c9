import FixEngine.Proofs.Engine.Repeated
import FixEngine.Proofs.Engine.Told

/-!
# Who wrote a message

A handler hands out messages that it builds itself, replies of the application and
messages that the application sends.  `Turn.Builds` lists those that a handler builds
when a message arrives, and `Turn.Authored` says of a whole turn whose messages it sends:
those of the handler, among them a logout only if the turn closes the connection, or the
replies of the application, which was told of the message.  A turn that leaves the
connection open never marks a logout as sent.
-/

namespace FixEngine

namespace Turn

variable {t t' t'' : Turn} {s : Session} {m : Message} {services : Services} {now : Timestamp}
  {allowed : Message → Prop}

/-! ### What is sent -/

/-- A turn goes on by sending no other messages than those that are allowed, once they
have been stamped. -/
def Utters (now : Timestamp) (allowed : Message → Prop) (t t' : Turn) : Prop :=
  ∀ out, .send out ∈ t'.actions →
    .send out ∈ t.actions ∨ ∃ draft, allowed draft ∧ ∃ s : Session, out = (s.stamp now draft).2

theorem utters_of_actions (hactions : t'.actions = t.actions) : t.Utters now allowed t' := by
  intro out hout
  rw [hactions] at hout
  exact .inl hout

theorem Utters.refl (t : Turn) : t.Utters now allowed t := utters_of_actions rfl

theorem Utters.trans (h : t.Utters now allowed t') (h' : t'.Utters now allowed t'') :
    t.Utters now allowed t'' := by
  intro out hout
  rcases h' out hout with hold | hnew
  · exact h out hold
  · exact .inr hnew

theorem utters_send (hallowed : allowed m) : t.Utters now allowed (t.send now m) := by
  intro out hout
  refine (mem_actions_send hout).imp id ?_
  rintro ⟨s, hs⟩
  exact ⟨m, hallowed, s, Action.send.inj hs⟩

theorem utters_replies {replies : List Message} :
    t.Utters now (· ∈ replies) (replies.foldl (fun t reply => t.send now reply) t) := by
  intro out hout
  refine (mem_actions_replies hout).imp id ?_
  rintro ⟨reply, hreply, s, hs⟩
  exact ⟨reply, hreply, s, Action.send.inj hs⟩

theorem Utters.close (h : t.Utters now allowed t') (reason : DisconnectReason) :
    t.Utters now allowed (t'.close reason) := by
  intro out hout
  rcases List.mem_append.1 hout with hsent | hclosed
  · exact h out hsent
  · exact Action.noConfusion (List.mem_singleton.1 hclosed)

/-- What has been sent since a turn that had not sent anything. -/
theorem Utters.exists_draft (h : t.Utters now allowed t') (hactions : t.actions = [])
    {out : Message} (hout : .send out ∈ t'.actions) :
    ∃ draft, allowed draft ∧ ∃ s : Session, out = (s.stamp now draft).2 := by
  rcases h out hout with hold | hnew
  · rw [hactions] at hold
    exact absurd hold List.not_mem_nil
  · exact hnew

/-! ### The messages of a handler -/

/-- What a handler may build itself when a message has arrived. -/
inductive Builds (m : Message) : Message → Prop
  | logon : Builds m (Admin.logonAnswer m)
  | logout (reason : Option DisconnectReason) :
      Builds m (Admin.logout (reason.map DisconnectReason.message))
  | heartbeat : Builds m (Admin.heartbeat (m.text? Tag.testReqId))
  | resendRequest (first last : UInt32) : Builds m (Admin.resendRequest first last)
  | refusal (msgType : MsgType) (reject : BusinessReject) :
      Builds m (Admin.businessMessageReject m.header.msgSeqNum msgType.text reject)

/-- What a handler may build itself while the connection stays open. -/
def BuildsOpen (m draft : Message) : Prop := Builds m draft ∧ draft.msgType? ≠ some .logout

theorem utters_refuse (t : Turn) (m : Message) (now : Timestamp) (reason : DisconnectReason) :
    t.Utters now (Builds m) (t.refuse now reason) := by
  have hmark : t.Utters now (Builds m) { t with handler.logoutSent := true } :=
    utters_of_actions rfl
  exact (hmark.trans (utters_send (Builds.logout (some reason)))).close reason

theorem buildsOpen_logon (m : Message) : BuildsOpen m (Admin.logonAnswer m) :=
  ⟨.logon, fun h => MsgType.noConfusion (Option.some.inj h)⟩

theorem buildsOpen_resendRequest (m : Message) (first last : UInt32) :
    BuildsOpen m (Admin.resendRequest first last) :=
  ⟨.resendRequest first last, fun h => MsgType.noConfusion (Option.some.inj h)⟩

/-- Whose messages a turn sends when a message has arrived, and what it does to the mark
of a logout. -/
inductive Authored (t : Turn) (services : Services) (m : Message) (t' : Turn) : Prop
  | goesOn (hmark : t'.handler.logoutSent = t.handler.logoutSent)
      (hutters : t.Utters services.now (BuildsOpen m) t')
  | closes (hphase : t'.handler.phase = .closed) (hutters : t.Utters services.now (Builds m) t')
  | replies {s : Session} {replies : List Message} (hsession : t.handler.session = some s)
      (hanswer : services.application.answer t.shared.events s.id m = .ok replies)
      (htold : t.Tells t' [.received s.id m])
      (hmark : t'.handler.logoutSent = t.handler.logoutSent)
      (hutters : t.Utters services.now (· ∈ replies) t')

@[simp]
theorem logoutSent_send (t : Turn) (now : Timestamp) (m : Message) :
    (t.send now m).handler.logoutSent = t.handler.logoutSent := by
  unfold send
  split <;> rfl

@[simp]
theorem logoutSent_replies (t : Turn) (now : Timestamp) (replies : List Message) :
    (replies.foldl (fun t reply => t.send now reply) t).handler.logoutSent =
      t.handler.logoutSent := by
  induction replies generalizing t with
  | nil => rfl
  | cons reply rest ih => exact (ih _).trans (logoutSent_send t now reply)

@[simp]
theorem logoutSent_resetSequence (t : Turn) (m : Message) :
    (t.resetSequence m).handler.logoutSent = t.handler.logoutSent := by
  unfold resetSequence
  split
  · split <;> rfl
  · rfl

theorem actions_resetSequence (t : Turn) (m : Message) :
    (t.resetSequence m).actions = t.actions := by
  unfold resetSequence
  split
  · split <;> rfl
  · rfl

theorem authored_close (t : Turn) (services : Services) (m : Message) (reason : DisconnectReason) :
    t.Authored services m (t.close reason) :=
  .closes rfl ((Utters.refl t).close reason)

theorem authored_refuse (t : Turn) (services : Services) (m : Message)
    (reason : DisconnectReason) : t.Authored services m (t.refuse services.now reason) :=
  .closes rfl (t.utters_refuse m services.now reason)

/-! ### The exchange of logons -/

theorem Accepts.authored {logon : Message} (h : t.Accepts services logon t') :
    t.Authored services logon t' := by
  cases h with
  | unknown | unnumbered => exact authored_close t services logon _
  | duplicate =>
    refine .closes rfl (Utters.close ?_ .duplicateSession)
    intro out hout
    rcases List.mem_append.1 hout with hold | hlogout
    · exact .inl hold
    · exact .inr ⟨_, .logout (some .duplicateSession), _,
        Action.send.inj (List.mem_singleton.1 hlogout)⟩
  | inOrder =>
    refine .goesOn (logoutSent_send _ services.now _) ?_
    have hregistered : t.Utters services.now (BuildsOpen logon)
        ((t.registered (.ofLogon services logon)).withSession
          (Session.ofLogon services logon).counted) := utters_of_actions rfl
    have hanswered := hregistered.trans (utters_send (buildsOpen_logon logon))
    exact hanswered.trans (utters_of_actions rfl)
  | @ahead n =>
    refine .goesOn ((logoutSent_send _ services.now _).trans (logoutSent_send _ services.now _)) ?_
    have hregistered : t.Utters services.now (BuildsOpen logon)
        ((t.registered (.ofLogon services logon)).withSession
          ((Session.ofLogon services logon).skipped n)) := utters_of_actions rfl
    have hanswered := hregistered.trans (utters_send (buildsOpen_logon logon))
    have hasked := hanswered.trans (utters_send (buildsOpen_resendRequest logon
      (Session.ofLogon services logon).counters.nextIncoming (n - 1)))
    exact hasked.trans (utters_of_actions rfl)
  | @stale n =>
    have hregistered : t.Utters services.now (Builds logon)
        ((t.registered (.ofLogon services logon)).withSession (.ofLogon services logon)) :=
      utters_of_actions rfl
    have hrefused := hregistered.trans (utters_refuse _ logon services.now
      (.sequenceTooLow (Session.ofLogon services logon).counters.nextIncoming n))
    exact .closes (phase_release _) (hrefused.trans (utters_of_actions (actions_release _)))

/-- The side that initiates a connection sends its logon and nothing else. -/
theorem Asks.utters {settings : Settings} (h : t.Asks services settings t') :
    t.Utters services.now (· = Admin.logonOf settings) t' := by
  cases h with
  | duplicate => exact (Utters.refl t).close .duplicateSession
  | asked =>
    have hregistered : t.Utters services.now (· = Admin.logonOf settings)
        (t.registered (.ofSettings services settings)) := utters_of_actions rfl
    exact (hregistered.trans (utters_send rfl)).trans (utters_of_actions rfl)

theorem Asks.logoutSent_eq {settings : Settings} (h : t.Asks services settings t') :
    t'.handler.logoutSent = t.handler.logoutSent := by
  cases h with
  | duplicate => rfl
  | asked => exact logoutSent_send _ services.now _

theorem Hears.authored {logon : Message} (h : t.Hears services logon t') :
    t.Authored services logon t' := by
  cases h with
  | ignored => exact .goesOn rfl (.refl t)
  | unnumbered => exact authored_close t services logon .missingSequenceNumber
  | inOrder => exact .goesOn rfl (utters_of_actions rfl)
  | @ahead s n =>
    have hestablished : t.Utters services.now (BuildsOpen logon)
        ((t.withSession (s.skipped n)).establish s.id) := utters_of_actions rfl
    exact .goesOn (logoutSent_send _ services.now _)
      (hestablished.trans (utters_send (buildsOpen_resendRequest logon _ _)))
  | @stale s n =>
    have hsession : t.Utters services.now (Builds logon) (t.withSession s) := utters_of_actions rfl
    exact .closes rfl (hsession.trans (utters_refuse _ logon services.now _))

/-! ### The traffic of a session -/

theorem authored_dispatch (hsession : t.handler.session = some s) (hshared : t'.shared = t.shared)
    (hmark : t'.handler.logoutSent = t.handler.logoutSent) (hactions : t'.actions = t.actions)
    (msgType : MsgType) : t.Authored services m (t'.dispatch services s.id msgType m) := by
  have htells := (tells_of_shared hshared).trans (t'.tells_dispatch services s.id msgType m)
  have htold (allowed : Message → Prop) :
      t.Utters services.now allowed (t'.tell (.received s.id m)) := utters_of_actions hactions
  unfold dispatch at htells ⊢
  split
  · next replies hanswer =>
    rw [hshared] at hanswer
    simp only [hshared, hanswer] at htells
    exact .replies hsession hanswer htells ((logoutSent_replies _ services.now _).trans hmark)
      ((htold _).trans utters_replies)
  · next reject hanswer =>
    have hopen : BuildsOpen m
        (Admin.businessMessageReject m.header.msgSeqNum msgType.text reject) :=
      ⟨.refusal msgType reject, fun h => MsgType.noConfusion (Option.some.inj h)⟩
    exact .goesOn ((logoutSent_send _ services.now _).trans hmark)
      ((htold _).trans (utters_send hopen))

theorem authored_process (hsession : t.handler.session = some s) (hshared : t'.shared = t.shared)
    (hmark : t'.handler.logoutSent = t.handler.logoutSent) (hactions : t'.actions = t.actions)
    (msgType : MsgType) : t.Authored services m (t'.process services s.id msgType m) := by
  have hsame (allowed : Message → Prop) : t.Utters services.now allowed t' :=
    utters_of_actions hactions
  cases msgType with
  | heartbeat => exact .goesOn hmark (hsame _)
  | testRequest =>
    have hopen : BuildsOpen m (Admin.heartbeat (m.text? Tag.testReqId)) :=
      ⟨.heartbeat, fun h => MsgType.noConfusion (Option.some.inj h)⟩
    exact .goesOn ((logoutSent_send t' services.now _).trans hmark)
      ((hsame _).trans (utters_send hopen))
  | logout =>
    refine .closes rfl (Utters.close ?_ .logout)
    split
    · exact hsame _
    · have hmarked : t'.Utters services.now (Builds m) { t' with handler.logoutSent := true } :=
        utters_of_actions rfl
      exact ((hsame _).trans hmarked).trans (utters_send (Builds.logout none))
  | sequenceReset =>
    exact .goesOn ((logoutSent_resetSequence t' m).trans hmark)
      ((hsame _).trans (utters_of_actions (actions_resetSequence t' m)))
  | _ => exact authored_dispatch hsession hshared hmark hactions _

theorem Checked.logoutSent_eq (h : t.Checked now s m (t', true)) :
    t'.handler.logoutSent = t.handler.logoutSent := by
  cases h <;> rfl

theorem Checked.actions_eq (h : t.Checked now s m (t', true)) : t'.actions = t.actions := by
  cases h <;> rfl

theorem Treated.authored (h : t.Treated services m t') : t.Authored services m t' := by
  cases h with
  | ignored => exact .goesOn rfl (.refl t)
  | logon => exact authored_refuse t services m .duplicateLogon
  | reset =>
    exact .goesOn (logoutSent_resetSequence t m) (utters_of_actions (actions_resetSequence t m))
  | stopped _ hcheck =>
    cases Checked.of_eq hcheck with
    | unnumbered | dropped => exact .goesOn rfl (.refl t)
    | tooLow => exact authored_refuse t services m _
    | @requested n =>
      have hmarked : t.Utters services.now (BuildsOpen m)
          { t with handler.resendUntil := some n } := utters_of_actions rfl
      exact .goesOn (logoutSent_send _ services.now _)
        (hmarked.trans (utters_send (buildsOpen_resendRequest m _ _)))
  | processed hchecked hcheck =>
    have hpasses := Checked.of_eq hcheck
    exact authored_process hchecked.session hpasses.shared hpasses.logoutSent_eq hpasses.actions_eq _

end Turn

namespace Handler

variable {h : Handler} {services : Services} {shared : Shared} {m : Message} {t : Turn}

theorem Receives.authored (hreceives : h.Receives services shared m t) :
    (Turn.start h shared).Authored services m t := by
  cases hreceives with
  | traffic _ htreated => exact htreated.authored
  | logon _ _ _ haccepts => exact haccepts.authored
  | answer _ hhears => exact hhears.authored
  | closed reason => exact Turn.authored_close _ services m reason
  | ignored => exact .goesOn rfl (.refl _)

end Handler

end FixEngine
