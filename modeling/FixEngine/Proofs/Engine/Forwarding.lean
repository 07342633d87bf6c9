import FixEngine.Proofs.Engine.Repeated
import FixEngine.Proofs.Engine.Told

/-!
# What a lenient handler hands on

A handler that does not act on unexpected numbers hands every message of the
application on, once and in order, until a logon or a logout closes the connection.
Each is answered with the replies of the application, or with one message that
refuses it, and with nothing else.
-/

namespace FixEngine

/-- The message that has arrived, if the input is one. -/
def Input.message? : Input → Option Message
  | message _ _ m => some m
  | stamp _ _ => none

namespace Message

/-- The message is for the application: it has a type, and the handler does not take
it up itself. -/
def isHandedOn (m : Message) : Bool := m.msgType?.any (!·.isTakenUp)

/-- The message closes an established connection. -/
def isFarewell (m : Message) : Bool := m.msgType? = some .logon || m.msgType? = some .logout

theorem isHandedOn_of_isFarewell {m : Message} (h : m.isFarewell = true) :
    m.isHandedOn = false := by
  rw [isFarewell, Bool.or_eq_true, decide_eq_true_eq, decide_eq_true_eq] at h
  rcases h with htype | htype
  all_goals
    rw [isHandedOn, htype]
    rfl

theorem isHandedOn_eq {m : Message} {msgType : MsgType} (htype : m.msgType? = some msgType) :
    m.isHandedOn = !msgType.isTakenUp := by
  rw [isHandedOn, htype, Option.any_some]

theorem isFarewell_eq {m : Message} {msgType : MsgType} (htype : m.msgType? = some msgType)
    (hne : msgType ≠ .logon) : m.isFarewell = decide (msgType = .logout) := by
  rw [isFarewell, htype]
  simp only [Option.some.injEq, decide_eq_false hne, Bool.false_or]

/-- A message refuses another one by its number and its type. -/
structure Refuses (refusal m : Message) : Prop where
  msgType : refusal.msgType? = some .businessMessageReject
  refSeqNum : refusal.integer? Tag.refSeqNum =
    m.header.msgSeqNum.map fun n => Int64.ofInt n.toNat
  refMsgType : refusal.text? Tag.refMsgType = m.msgType?.map MsgType.text

end Message

namespace Session

/-- The messages stamped one after another. -/
def stampAll (s : Session) (now : Timestamp) : List Message → List Message
  | [] => []
  | m :: rest => (s.stamp now m).2 :: (s.stamp now m).1.stampAll now rest

/-- Counting a number that arrives does not touch what is stamped. -/
theorem stampAll_counted (s : Session) (now : Timestamp) (messages : List Message) :
    s.counted.stampAll now messages = s.stampAll now messages := by
  induction messages generalizing s with
  | nil => rfl
  | cons m rest ih =>
    have hrest := ih (s.stamp now m).1
    rw [stampAll, stampAll, ← hrest]
    rfl

theorem refuses_stamp (s : Session) (now : Timestamp) {m : Message} {msgType : MsgType}
    (htype : m.msgType? = some msgType) (reject : BusinessReject) :
    (s.stamp now (Admin.businessMessageReject m.header.msgSeqNum msgType.text reject)).2.Refuses
      m where
  msgType := rfl
  refSeqNum := by
    cases m.header.msgSeqNum with
    | none =>
      -- The optional fields after the type have other tags.
      obtain ⟨reason, text, refId⟩ := reject
      cases text <;> cases refId <;> rfl
    | some n => rfl
  refMsgType := by
    rw [htype]
    cases m.header.msgSeqNum with
    | none => rfl
    | some n => rfl

end Session

namespace Turn

variable {t t' : Turn} {s : Session} {m : Message} {services : Services} {msgType : MsgType}

theorem actions_replies (hsession : t.handler.session = some s) (now : Timestamp)
    (replies : List Message) :
    (replies.foldl (fun t reply => t.send now reply) t).actions =
      t.actions ++ (s.stampAll now replies).map .send := by
  induction replies generalizing t s with
  | nil => exact (List.append_nil _).symm
  | cons reply rest ih =>
    have hsends := sends_send hsession now reply
    have hnext : (t.send now reply).handler.session = some (s.stamp now reply).1 := by
      rw [hsends.handler]
    rw [List.foldl_cons, ih hnext, hsends.actions, List.append_assoc]
    rfl

/-- What a lenient handler makes of the number of a message: it may count it, and lets
the message pass. -/
theorem Checked.of_lenient {now : Timestamp} {result : Turn × Bool}
    (h : t.Checked now s m result) (hlenient : t.handler.strict = false) :
    result.2 = true ∧ (result.1 = t ∨ result.1 = t.counted s) := by
  cases h with
  | unnumbered _ hpasses =>
    rw [hlenient] at hpasses
    exact ⟨hpasses, .inl rfl⟩
  | repeated | tolerated => exact ⟨rfl, .inl rfl⟩
  | counted => exact ⟨rfl, .inr rfl⟩
  | tooLow _ _ _ hstrict | requested _ _ hstrict | dropped _ _ hstrict =>
    exact absurd (hlenient.symm.trans hstrict) Bool.false_ne_true

theorem not_checked_of_lenient {now : Timestamp} (hlenient : t.handler.strict = false) :
    t.checkSequence now s m ≠ (t', false) := by
  intro hcheck
  obtain ⟨hpasses, -⟩ := (Checked.of_eq hcheck).of_lenient hlenient
  contradiction

/-- The application is told of a message that is handed on, and of nothing else. -/
theorem Treated.tells_of_lenient {id : SessionId} (h : t.Treated services m t')
    (hlenient : t.handler.strict = false) (hid : t.handler.sessionId? = some id) :
    t.Tells t' (if m.isHandedOn then [.received id m] else []) := by
  cases h with
  | ignored hnone =>
    have htype : m.msgType? = none := by
      refine hnone.resolve_left ?_
      intro hsession
      rw [Handler.sessionId?, hsession] at hid
      contradiction
    rw [Message.isHandedOn, htype]
    exact tells_of_shared rfl
  | logon htype =>
    rw [Message.isHandedOn_eq htype]
    exact tells_of_shared (shared_refuse t services.now .duplicateLogon)
  | reset htype =>
    rw [Message.isHandedOn_eq htype]
    exact tells_of_shared (shared_resetSequence t m)
  | stopped _ hcheck => exact absurd hcheck (not_checked_of_lenient hlenient)
  | @processed s msgType t'' hchecked hcheck =>
    rw [Handler.sessionId?, hchecked.session] at hid
    cases hid
    have hprocess := tells_process hchecked.ne_logon t'' services s.id m
    have htells := (tells_of_shared (Checked.of_eq hcheck).shared).trans hprocess
    rw [List.nil_append] at htells
    rw [Message.isHandedOn_eq hchecked.type]
    cases htaken : msgType.isTakenUp with
    | true | false =>
      rw [htaken] at htells
      exact htells

/-- A message closes the connection just if it is a logon or a logout. -/
theorem Treated.phase_of_lenient (h : t.Treated services m t')
    (hlenient : t.handler.strict = false) (hsession : t.handler.session ≠ none) :
    t'.handler.phase = if m.isFarewell then .closed else t.handler.phase := by
  cases h with
  | ignored hnone =>
    rw [Message.isFarewell, hnone.resolve_left hsession]
    rfl
  | logon htype =>
    rw [Message.isFarewell, htype]
    rfl
  | reset htype =>
    rw [Message.isFarewell_eq htype MsgType.noConfusion, phase_resetSequence]
    rfl
  | stopped _ hcheck => exact absurd hcheck (not_checked_of_lenient hlenient)
  | @processed s msgType t'' hchecked hcheck =>
    rw [Message.isFarewell_eq hchecked.type hchecked.ne_logon]
    by_cases hlogout : msgType = .logout
    · subst hlogout
      rfl
    · rw [phase_process hlogout, (Checked.of_eq hcheck).phase_eq, decide_eq_false hlogout]
      rfl

/-- A message that the handler does not take up itself is handed to the application. -/
theorem process_of_not_isTakenUp (h : msgType.isTakenUp = false) (t : Turn) (services : Services)
    (id : SessionId) (m : Message) :
    t.process services id msgType m = t.dispatch services id msgType m := by
  cases msgType with
  | heartbeat | testRequest | logout | sequenceReset => contradiction
  | _ => rfl

/-- What answers a message that is handed on: the replies of the application in order,
or one message that refuses it. -/
def Forwards (t : Turn) (services : Services) (s : Session) (m : Message) (t' : Turn) : Prop :=
  (∀ replies, services.application.answer t.shared.events s.id m = .ok replies →
    t'.actions = t.actions ++ (s.stampAll services.now replies).map .send) ∧
  (∀ reject, services.application.answer t.shared.events s.id m = .error reject →
    ∃ refusal : Message, refusal.Refuses m ∧ t'.actions = t.actions ++ [.send refusal])

theorem forwards_dispatch (hsession : t.handler.session = some s)
    (htype : m.msgType? = some msgType) (services : Services) :
    t.Forwards services s m (t.dispatch services s.id msgType m) := by
  have htold : (t.tell (.received s.id m)).handler.session = some s := hsession
  constructor
  · intro replies hanswer
    simp only [dispatch, hanswer]
    exact actions_replies htold services.now replies
  · intro reject hanswer
    refine ⟨_, s.refuses_stamp services.now htype reject, ?_⟩
    simp only [dispatch, hanswer]
    exact (sends_send htold services.now _).actions

/-- Counting the number of a message does not touch the answer to it. -/
theorem Forwards.of_counted (h : (t.counted s).Forwards services s.counted m t') :
    t.Forwards services s m t' := by
  obtain ⟨hreplies, hrefusal⟩ := h
  refine ⟨?_, hrefusal⟩
  intro replies hanswer
  rw [← s.stampAll_counted]
  exact hreplies replies hanswer

theorem forwards_traffic (hsession : t.handler.session = some s)
    (hlenient : t.handler.strict = false) (hon : m.isHandedOn = true) (services : Services) :
    t.Forwards services s m (t.traffic services m) := by
  obtain ⟨msgType, htype, hkind⟩ := (Option.any_eq_true _ _).1 hon
  have hnot : msgType.isTakenUp = false := by simpa using hkind
  have hchecked : t.IsChecked s msgType m := by
    refine ⟨hsession, htype, ?_, ?_⟩
    · rintro rfl
      contradiction
    · have hne : msgType ≠ .sequenceReset := by
        rintro rfl
        contradiction
      rw [isPlainReset, decide_eq_false hne, Bool.false_and]
  obtain ⟨hpasses, hturn⟩ := (checked_checkSequence t services.now s m).of_lenient hlenient
  have hcheck : t.checkSequence services.now s m =
      ((t.checkSequence services.now s m).1, true) := by rw [← hpasses]
  rw [traffic_of_isChecked hchecked hcheck, process_of_not_isTakenUp hnot]
  rcases hturn with hsame | hcounted
  · rw [hsame]
    exact forwards_dispatch hsession htype services
  · rw [hcounted]
    exact .of_counted (forwards_dispatch (t := t.counted s) (s := s.counted) rfl htype services)

end Turn

namespace Handler

variable {h : Handler} {id : SessionId} {m : Message} {services : Services} {shared : Shared}
  {inputs : List Input}

/-- A lenient handler in the traffic of a session. -/
structure IsLenient (h : Handler) (id : SessionId) : Prop where
  phase : h.phase = .established
  strict : h.strict = false
  sessionId? : h.sessionId? = some id

/-! ### One input -/

theorem IsLenient.treated (hlenient : h.IsLenient id) (services : Services) (shared : Shared)
    (m : Message) :
    (Turn.start h shared).Treated services m (h.receive services shared m) := by
  rw [receive_established hlenient.phase]
  exact (Turn.start h shared).treated_traffic services m

theorem IsLenient.tells_message (hlenient : h.IsLenient id) (services : Services)
    (shared : Shared) (m : Message) :
    h.tells (.input (.message services shared m)) =
      if m.isHandedOn then [.received id m] else [] :=
  ((hlenient.treated services shared m).tells_of_lenient hlenient.strict
    hlenient.sessionId?).toldSince_eq

theorem IsLenient.session_ne (hlenient : h.IsLenient id) : h.session ≠ none := by
  intro hsession
  have hid := hlenient.sessionId?
  rw [Handler.sessionId?, hsession] at hid
  contradiction

theorem IsLenient.phase_message (hlenient : h.IsLenient id) (services : Services)
    (shared : Shared) (m : Message) :
    (h.next (.message services shared m)).phase =
      if m.isFarewell then .closed else .established := by
  rw [← hlenient.phase]
  exact (hlenient.treated services shared m).phase_of_lenient hlenient.strict hlenient.session_ne

/-- The handler goes on as long as neither a logon nor a logout arrives. -/
theorem IsLenient.next (hlenient : h.IsLenient id) {input : Input}
    (hstays : ∀ m, input.message? = some m → m.isFarewell = false) :
    (h.next input).IsLenient id := by
  cases input with
  | message services shared m =>
    have htreated := hlenient.treated services shared m
    refine ⟨?_, htreated.stays.strict.trans hlenient.strict,
      htreated.spares.sessionId?.trans hlenient.sessionId?⟩
    rw [hlenient.phase_message, hstays m rfl]
    rfl
  | stamp now m =>
    rcases h.stamp_cases now m with ⟨hsame, -⟩ | ⟨hphase, s, hsession, hnext, -⟩
    · rw [hsame]
      exact hlenient
    · have hid := hlenient.sessionId?
      rw [Handler.sessionId?, hsession] at hid
      rw [hnext]
      exact ⟨hphase, hlenient.strict, hid⟩

/-! ### Runs -/

theorem IsLenient.after (hlenient : h.IsLenient id)
    (hstays : ∀ m ∈ inputs.filterMap Input.message?, m.isFarewell = false) :
    (h.after inputs).IsLenient id := by
  induction inputs generalizing h with
  | nil => exact hlenient
  | cons input rest ih =>
    refine ih (hlenient.next ?_) ?_
    · intro m hm
      exact hstays m (List.mem_filterMap.2 ⟨input, List.mem_cons_self, hm⟩)
    · intro m hm
      obtain ⟨later, hlater, hm⟩ := List.mem_filterMap.1 hm
      exact hstays m (List.mem_filterMap.2 ⟨later, List.mem_cons_of_mem input hlater, hm⟩)

/-- Nothing is told once the connection has been closed. -/
theorem told_of_closed (hclosed : h.phase = .closed) (inputs : List Input) :
    h.told (inputs.map .input) = [] := by
  induction inputs with
  | nil => rfl
  | cons input rest ih =>
    have hdone := isDone_of_closed hclosed
    have hsame : h.next input = h ∧ h.tells (.input input) = [] := hdone.input input
    rw [List.map_cons, told, hsame.2, afterCall, hsame.1, ih]
    rfl

/-- The messages of a run that are for the application, up to the first logon or
logout. -/
def handedOn (inputs : List Input) : List Message :=
  ((inputs.filterMap Input.message?).takeWhile (!·.isFarewell)).filter (·.isHandedOn)

theorem IsLenient.told_eq (hlenient : h.IsLenient id) (inputs : List Input) :
    h.told (inputs.map .input) = (handedOn inputs).map (.received id) := by
  induction inputs generalizing h with
  | nil => rfl
  | cons input rest ih =>
    rw [List.map_cons, told]
    cases input with
    | stamp now m =>
      have hnext : (h.next (.stamp now m)).IsLenient id := by
        apply hlenient.next
        intro _ hnone
        contradiction
      exact ih hnext
    | message services shared m =>
      rw [hlenient.tells_message]
      cases hfarewell : m.isFarewell with
      | true =>
        have hclosed : (h.next (.message services shared m)).phase = .closed := by
          rw [hlenient.phase_message, hfarewell]
          rfl
        have hrest := told_of_closed hclosed rest
        rw [Message.isHandedOn_of_isFarewell hfarewell, afterCall, hrest]
        simp [handedOn, Input.message?, hfarewell]
      | false =>
        have hnext : (h.next (.message services shared m)).IsLenient id := by
          refine hlenient.next ?_
          rintro _ ⟨⟩
          exact hfarewell
        rw [afterCall, ih hnext]
        cases hon : m.isHandedOn with
        | true => simp [handedOn, Input.message?, hfarewell, hon]
        | false => simp [handedOn, Input.message?, hfarewell, hon]

/-- An established handler holds a session. -/
theorem exists_sessionId? (hnew : h.IsNew) (life : Life)
    (hphase : ((h.opened life).after life.inputs).phase = .established) :
    ∃ id, ((h.opened life).after life.inputs).sessionId? = some id := by
  cases hasTold_after hnew life with
  | quiet _ _ _ hopen => exact absurd hphase hopen
  | inside _ _ hid => exact ⟨_, hid⟩
  | ended _ _ _ hclosed => exact absurd (hphase.symm.trans hclosed) Phase.noConfusion

/-- An established handler that does not act on unexpected numbers hands on, once and in
order, all messages for the application up to the first logon or logout, and tells the
application of nothing else.  Each of them is answered with the replies of the
application in order, or with one message that refuses it. -/
theorem handed_on_once {lenient : Handler} (hnew : h.IsNew) (life : Life)
    (hreached : (h.opened life).after life.inputs = lenient) (hphase : lenient.phase = .established)
    (hstrict : lenient.strict = false) (inputs : List Input) :
    ∃ id, lenient.sessionId? = some id ∧
      lenient.told (inputs.map .input) = (handedOn inputs).map (.received id) ∧
      ∀ before services shared m after, inputs = before ++ .message services shared m :: after →
        (∀ earlier ∈ before.filterMap Input.message?, earlier.isFarewell = false) →
        m.isHandedOn = true →
          ∃ s, (lenient.after before).session = some s ∧ s.id = id ∧
            (Turn.start (lenient.after before) shared).Forwards services s m
              ((lenient.after before).receive services shared m) := by
  subst hreached
  obtain ⟨id, hid⟩ := exists_sessionId? hnew life hphase
  have hbegun : ((h.opened life).after life.inputs).IsLenient id := ⟨hphase, hstrict, hid⟩
  refine ⟨id, hid, hbegun.told_eq inputs, ?_⟩
  intro before services shared m after _ hstays hon
  have hopen := hbegun.after hstays
  obtain ⟨s, hsession, hsame⟩ := Option.map_eq_some_iff.1 hopen.sessionId?
  refine ⟨s, hsession, hsame, ?_⟩
  rw [receive_established hopen.phase]
  exact Turn.forwards_traffic hsession hopen.strict hon services

/-- News ahead of the expected number and news below it, a test request between them,
and news after a logout. -/
def sampleTraffic : List Input :=
  [sampleInput 7 (Message.ofType .news []), sampleInput 2 (Admin.testRequest "T"),
    sampleInput 1 (Message.ofType .news []), sampleInput 3 (Admin.logout none),
    sampleInput 4 (Message.ofType .news [])]

/-- The news before the logout are handed on. -/
theorem handed_on_once_sample :
    ∃ (h lenient : Handler) (life : Life) (id : SessionId), h.IsNew ∧
      (h.opened life).after life.inputs = lenient ∧ lenient.phase = .established ∧
      lenient.strict = false ∧
      (handedOn sampleTraffic).map (·.header.msgSeqNum) = [some 7, some 1] ∧
      lenient.told (sampleTraffic.map .input) =
        (handedOn sampleTraffic).map (.received id) := by
  have hnew : (acceptor false 1 none).IsNew := .acceptor false 1 none
  let life : Life := { sampleVisit with inputs := [sampleInput 1 (Admin.logon 30 false)] }
  obtain ⟨id, -, htold, -⟩ := handed_on_once hnew life rfl rfl rfl sampleTraffic
  exact ⟨_, _, life, id, hnew, rfl, rfl, rfl, rfl, htold⟩

end Handler

end FixEngine
