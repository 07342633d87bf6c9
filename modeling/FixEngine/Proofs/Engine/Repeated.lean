import FixEngine.Proofs.Engine.Outgoing
import FixEngine.Proofs.Engine.Run

/-!
# Possible duplicates

A possible duplicate below the expectation is processed without being counted.
Whatever the handler answers, it neither asks for messages again nor gives up the
session for the number.  The expectation stays where it is, unless the message is
a sequence reset: then the number that it gives may move the expectation forward,
although the message itself was not expected.
-/

namespace FixEngine

namespace Turn

variable {t : Turn} {s : Session} {m : Message} {action : Action}

/-! ### What a turn answers -/

theorem mem_actions_send {now : Timestamp} (hmem : action ∈ (t.send now m).actions) :
    action ∈ t.actions ∨ ∃ s : Session, action = .send (s.stamp now m).2 := by
  cases hsession : t.handler.session with
  | none =>
    rw [send_of_none hsession] at hmem
    exact .inl hmem
  | some s =>
    rw [(sends_send hsession now m).actions, List.mem_append] at hmem
    rcases hmem with hold | hnew
    · exact .inl hold
    · exact .inr ⟨s, List.mem_singleton.1 hnew⟩

theorem mem_actions_replies {now : Timestamp} {replies : List Message}
    (hmem : action ∈ (replies.foldl (fun t reply => t.send now reply) t).actions) :
    action ∈ t.actions ∨
      ∃ reply ∈ replies, ∃ s : Session, action = .send (s.stamp now reply).2 := by
  induction replies generalizing t with
  | nil => exact .inl hmem
  | cons reply rest ih =>
    rcases ih hmem with hold | ⟨later, hlater, hnew⟩
    · rcases mem_actions_send hold with hold | hnew
      · exact .inl hold
      · exact .inr ⟨reply, List.mem_cons_self, hnew⟩
    · exact .inr ⟨later, List.mem_cons_of_mem reply hlater, hnew⟩

/-- What may answer a message that is processed: a message of the handler itself,
which asks for nothing to be sent again, a reply of the application, or the end of
the connection after a logout. -/
inductive Answers (services : Services) (events : List Event) (id : SessionId)
    (msgType : MsgType) (m : Message) : Action → Prop
  | own {s : Session} {answer : Message} {kind : MsgType} (hkind : answer.msgType? = some kind)
      (hne : kind ≠ .resendRequest) :
      Answers services events id msgType m (.send (s.stamp services.now answer).2)
  | reply {s : Session} {replies : List Message} {reply : Message}
      (hanswer : services.application.answer events id m = .ok replies)
      (hreply : reply ∈ replies) :
      Answers services events id msgType m (.send (s.stamp services.now reply).2)
  | closed (htype : msgType = .logout) :
      Answers services events id msgType m (.disconnect .logout)

variable {services : Services} {id : SessionId} {msgType : MsgType}

theorem answers_of_send {answer : Message} {kind : MsgType}
    (hkind : answer.msgType? = some kind) (hne : kind ≠ .resendRequest)
    (hmem : action ∈ (t.send services.now answer).actions) :
    action ∈ t.actions ∨ Answers services t.shared.events id msgType m action := by
  rcases mem_actions_send hmem with hold | ⟨s, rfl⟩
  · exact .inl hold
  · exact .inr (.own hkind hne)

theorem answers_dispatch (hmem : action ∈ (t.dispatch services id msgType m).actions) :
    action ∈ t.actions ∨ Answers services t.shared.events id msgType m action := by
  unfold dispatch at hmem
  split at hmem
  · next replies hanswer =>
    rcases mem_actions_replies hmem with hold | ⟨reply, hreply, s, rfl⟩
    · exact .inl hold
    · exact .inr (.reply hanswer hreply)
  · next reject hanswer =>
    rcases mem_actions_send hmem with hold | ⟨s, rfl⟩
    · exact .inl hold
    · exact .inr (.own rfl (by decide))

theorem answers_process (hmem : action ∈ (t.process services id msgType m).actions) :
    action ∈ t.actions ∨ Answers services t.shared.events id msgType m action := by
  cases msgType with
  | heartbeat => exact .inl hmem
  | testRequest => exact answers_of_send rfl (by decide) hmem
  | logout =>
    rcases List.mem_append.1 hmem with hanswered | hclosed
    · split at hanswered
      · exact .inl hanswered
      · exact answers_of_send (t := { t with handler.logoutSent := true }) rfl (by decide) hanswered
    · cases List.mem_singleton.1 hclosed
      exact .inr (.closed rfl)
  | sequenceReset =>
    have hactions : (t.resetSequence m).actions = t.actions := by
      unfold resetSequence
      repeat' split
      all_goals rfl
    refine .inl ?_
    rw [← hactions]
    exact hmem
  | _ => exact answers_dispatch hmem

/-- A possible duplicate below the expectation passes the check of its number and
is not counted. -/
theorem checkSequence_of_repeated (t : Turn) (now : Timestamp) {n : UInt32}
    (hdup : m.possDup = true) (hnumber : m.header.msgSeqNum = some n)
    (hlow : n < s.counters.nextIncoming) : t.checkSequence now s m = (t, true) := by
  have hrepeated : (m.possDup && decide (n < s.counters.nextIncoming)) = true := by
    rw [hdup, decide_eq_true hlow, Bool.true_and]
  simp only [checkSequence, hnumber, hrepeated, if_true]

end Turn

namespace Handler

variable {h : Handler} {s : Session} {m : Message}

/-- A possible duplicate arrives below the expectation.  It is neither a logon nor
a sequence reset that holds whatever its number. -/
structure Retells (h : Handler) (m : Message) : Prop where
  phase : h.phase = .established
  repeats : h.Repeats m
  ne_logon : m.msgType? ≠ some .logon
  fills : m.msgType? = some .sequenceReset → m.flag? Tag.gapFillFlag = some true

/-- A possible duplicate is processed as it is. -/
theorem Retells.receive_eq (hretells : h.Retells m) (hsession : h.session = some s)
    {msgType : MsgType} (htype : m.msgType? = some msgType) (services : Services)
    (shared : Shared) :
    h.receive services shared m = (Turn.start h shared).process services s.id msgType m := by
  obtain ⟨hdup, hlow⟩ := hretells.repeats
  rw [expects_of_session hsession] at hlow
  obtain ⟨n, hnumber, hlow⟩ := (Option.any_eq_true _ _).1 hlow
  have hchecked : (Turn.start h shared).IsChecked s msgType m := by
    refine ⟨hsession, htype, ?_, ?_⟩
    · rintro rfl
      exact hretells.ne_logon htype
    · by_cases hreset : msgType = .sequenceReset
      · subst hreset
        simp [Turn.isPlainReset, hretells.fills htype]
      · simp [Turn.isPlainReset, hreset]
  rw [receive_established hretells.phase]
  exact Turn.traffic_of_isChecked hchecked
    (Turn.checkSequence_of_repeated _ services.now hdup hnumber (of_decide_eq_true hlow))

/-- A message without a type is ignored. -/
theorem receive_of_no_type (hphase : h.phase = .established) (htype : m.msgType? = none)
    (services : Services) (shared : Shared) :
    h.receive services shared m = Turn.start h shared := by
  rw [receive_established hphase, Turn.traffic]
  split
  · next hsome =>
    rw [htype] at hsome
    contradiction
  · rfl

/-- A possible duplicate below the expectation leaves the expectation alone,
unless it fills a gap up to a number beyond it.  Nothing ends the connection but a
logout, and nothing asks for messages again but a reply of the application. -/
theorem receive_of_retells (hretells : h.Retells m) (hsession : h.session = some s)
    (services : Services) (shared : Shared) :
    (∃ s', (h.receive services shared m).handler.session = some s' ∧ s'.id = s.id ∧
      (s'.counters.nextIncoming = s.counters.nextIncoming ∨
        ∃ n, m.msgType? = some .sequenceReset ∧ m.newSeqNo? = some n ∧
          s.counters.nextIncoming < n ∧ s'.counters.nextIncoming = n)) ∧
    (∀ reason, .disconnect reason ∈ (h.receive services shared m).actions →
      reason = .logout ∧ m.msgType? = some .logout) ∧
    (∀ request, .send request ∈ (h.receive services shared m).actions →
      request.msgType? = some .resendRequest →
        ∃ replies reply, ∃ s₀ : Session,
          services.application.answer shared.events s.id m = .ok replies ∧ reply ∈ replies ∧
            request = (s₀.stamp services.now reply).2) := by
  cases htype : m.msgType? with
  | none =>
    rw [receive_of_no_type hretells.phase htype]
    refine ⟨⟨s, hsession, rfl, .inl rfl⟩, ?_, ?_⟩
    · intro reason hmem
      exact absurd hmem List.not_mem_nil
    · intro request hmem
      exact absurd hmem List.not_mem_nil
  | some msgType =>
    rw [hretells.receive_eq hsession htype]
    have hanswers : ∀ action ∈ ((Turn.start h shared).process services s.id msgType m).actions,
        Turn.Answers services shared.events s.id msgType m action := by
      intro action hmem
      rcases Turn.answers_process hmem with hold | hnew
      · exact absurd hold List.not_mem_nil
      · exact hnew
    refine ⟨?_, ?_, ?_⟩
    · obtain ⟨s', hnext, hid, hmoves⟩ := Turn.exists_session_process (t := Turn.start h shared)
        hsession services s.id msgType m
      refine ⟨s', hnext, hid, ?_⟩
      rcases hmoves with hsame | ⟨n, hkind, hmoves⟩
      · exact .inl hsame
      · exact .inr ⟨n, congrArg some hkind, hmoves⟩
    · intro reason hmem
      cases hanswers _ hmem with
      | closed hlogout => exact ⟨rfl, congrArg some hlogout⟩
    · intro request hmem hkind
      cases hanswers _ hmem with
      | own hown hne => exact absurd (Option.some.inj (hown.symm.trans hkind)) hne
      | @reply s₀ replies reply hanswer hreply =>
        exact ⟨replies, reply, s₀, hanswer, hreply, rfl⟩

/-- A message of the other side under its first number, marked as a repetition. -/
def sampleRepetition (m : Message) : Message :=
  let id : SessionId := { senderCompId := "CLIENT", targetCompId := "SERVER" }
  ((Session.start id "FIX.4.4" 1 1).stamp .epoch
    { m with header.fields := [⟨Tag.possDupFlag, .flag true⟩] }).2

/-- News that are repeated under one leave the expectation at two. -/
theorem receive_of_retells_sample :
    ∃ s s' : Session, sampleAcceptor.Retells (sampleRepetition (Message.ofType .news [])) ∧
      sampleAcceptor.session = some s ∧ s.counters.nextIncoming = 2 ∧
      (sampleAcceptor.receive ⟨.silent, .acceptAll, .epoch, .fresh⟩ .empty
        (sampleRepetition (Message.ofType .news []))).handler.session = some s' ∧
      s'.counters.nextIncoming = 2 := by
  have hretells : sampleAcceptor.Retells (sampleRepetition (Message.ofType .news [])) :=
    ⟨rfl, ⟨by decide, by decide⟩, by decide, by decide⟩
  obtain ⟨⟨s', hnext, -, hmoves⟩, -, -⟩ := receive_of_retells hretells rfl
    ⟨.silent, .acceptAll, .epoch, .fresh⟩ .empty
  refine ⟨_, s', hretells, rfl, rfl, hnext, ?_⟩
  rcases hmoves with hsame | ⟨n, hkind, -⟩
  · exact hsame
  · exact absurd hkind (by decide)

/-- A gap fill under one that is marked as a repetition moves the expectation from
two to ten. -/
theorem exists_retells_moves :
    ∃ (h : Handler) (services : Services) (shared : Shared) (m : Message) (s s' : Session),
      h.Retells m ∧ h.session = some s ∧ s.counters.nextIncoming = 2 ∧
      (h.receive services shared m).handler.session = some s' ∧
      s'.counters.nextIncoming = 10 := by
  refine ⟨sampleAcceptor, ⟨.silent, .acceptAll, .epoch, .fresh⟩, .empty,
    sampleRepetition (sampleGapFill 10), _, _, ?_, rfl, rfl, rfl, rfl⟩
  exact ⟨rfl, ⟨by decide, by decide⟩, by decide, by decide⟩

end Handler

end FixEngine
