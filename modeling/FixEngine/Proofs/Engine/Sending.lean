import FixEngine.Engine.Logon

/-!
# What a turn sends

The messages that a turn sends carry consecutive numbers, and sending changes
nothing about the handler but the number that comes next.  A message of the
application that arrives under the expected number is answered in just this way.
-/

namespace FixEngine

/-- The message is one of the application: its type is not one of the session
itself. -/
def Message.IsApplication (m : Message) : Prop :=
  ∃ t, m.msgType? = some t ∧ t.isAdministrative = false

/-- The application replies with messages of its own only. -/
def Application.RepliesWithin (application : Application) : Prop :=
  ∀ events id m replies, application.answer events id m = .ok replies →
    ∀ reply ∈ replies, reply.IsApplication

/-- The messages that are sent are the ones to be written. -/
theorem Action.filterMap_message?_map_send (messages : List Message) :
    (messages.map send).filterMap message? = messages := by
  rw [List.filterMap_map]
  exact List.filterMap_some

/-- A number below another one is followed by the next one. -/
theorem toNat_succ_of_lt {n k : UInt32} (h : n < k) : (n + 1).toNat = n.toNat + 1 := by
  have hone : (1 : UInt32).toNat = 1 := rfl
  have hk : k.toNat < 4294967296 := k.toNat_lt
  rw [UInt32.lt_iff_toNat_lt] at h
  rw [UInt32.toNat_add, hone]
  omega

/-- Messages carry consecutive numbers from the first, and the one that comes
next is the last.  After the greatest number comes zero. -/
def Consecutive (first : UInt32) : List Message → UInt32 → Prop
  | [], last => first = last
  | m :: rest, last => m.header.msgSeqNum = some first ∧ Consecutive (first + 1) rest last

namespace Consecutive

variable {first next last : UInt32} {m : Message} {left right : List Message}

theorem append (hleft : Consecutive first left next) (hright : Consecutive next right last) :
    Consecutive first (left ++ right) last := by
  induction left generalizing first with
  | nil =>
    cases hleft
    exact hright
  | cons m rest ih =>
    obtain ⟨hm, hrest⟩ := hleft
    exact ⟨hm, ih hrest⟩

theorem singleton (hm : m.header.msgSeqNum = some first) : Consecutive first [m] (first + 1) :=
  ⟨hm, rfl⟩

end Consecutive

namespace Session

/-- The session after it has counted the number that it expected. -/
def counted (s : Session) : Session :=
  { s with counters := { s.counters with nextIncoming := s.counters.nextIncoming + 1 } }

theorem receive_expected (s : Session) :
    s.receive s.counters.nextIncoming = (.inOrder, s.counted) := by
  simp only [receive, Counters.receive, Counters.compareIncoming, if_true]
  rfl

end Session

namespace Turn

variable {t t' t'' : Turn} {s s' s'' : Session} {messages more : List Message}

/-- A turn goes on by sending messages in the session. -/
structure Sends (t t' : Turn) (s s' : Session) (messages : List Message) : Prop where
  session : t.handler.session = some s
  handler : t'.handler = { t.handler with session := some s' }
  id : s'.id = s.id
  nextIncoming : s'.counters.nextIncoming = s.counters.nextIncoming
  actions : t'.actions = t.actions ++ messages.map .send
  consecutive : Consecutive s.counters.nextOutgoing messages s'.counters.nextOutgoing

theorem Sends.refl (hsession : t.handler.session = some s) : t.Sends t s s [] where
  session := hsession
  handler := by rw [← hsession]
  id := rfl
  nextIncoming := rfl
  actions := (List.append_nil _).symm
  consecutive := rfl

theorem Sends.trans (h : t.Sends t' s s' messages) (h' : t'.Sends t'' s' s'' more) :
    t.Sends t'' s s'' (messages ++ more) where
  session := h.session
  handler := by rw [h'.handler, h.handler]
  id := h'.id.trans h.id
  nextIncoming := h'.nextIncoming.trans h.nextIncoming
  actions := by rw [h'.actions, h.actions, List.map_append, List.append_assoc]
  consecutive := h.consecutive.append h'.consecutive

theorem Sends.tell (hsession : t.handler.session = some s) (event : Event) :
    t.Sends (t.tell event) s s [] :=
  ⟨hsession, by rw [← hsession]; rfl, rfl, rfl, (List.append_nil _).symm, rfl⟩

theorem sends_send (hsession : t.handler.session = some s) (now : Timestamp) (m : Message) :
    t.Sends (t.send now m) s (s.stamp now m).1 [(s.stamp now m).2] := by
  have hsend : t.send now m =
      { t with handler.session := some (s.stamp now m).1 }.act (.send (s.stamp now m).2) := by
    simp only [send, hsession]
  rw [hsend]
  exact ⟨hsession, rfl, rfl, rfl, rfl, .singleton rfl⟩

/-- Replies of the application are sent one after another. -/
theorem exists_sends_replies (now : Timestamp) {replies : List Message}
    (hreplies : ∀ reply ∈ replies, reply.IsApplication) (hsession : t.handler.session = some s) :
    ∃ s' messages, t.Sends (replies.foldl (fun t reply => t.send now reply) t) s s' messages ∧
      ∀ m ∈ messages, m.IsApplication := by
  induction replies generalizing t s with
  | nil => exact ⟨s, [], .refl hsession, by simp⟩
  | cons reply rest ih =>
    rw [List.forall_mem_cons] at hreplies
    obtain ⟨hreply, hrest⟩ := hreplies
    have hfirst := sends_send hsession now reply
    have hnext : (t.send now reply).handler.session = some (s.stamp now reply).1 := by
      rw [hfirst.handler]
    obtain ⟨s', messages, hsends, happlication⟩ := ih hrest hnext
    refine ⟨s', _, hfirst.trans hsends, ?_⟩
    rw [List.singleton_append, List.forall_mem_cons]
    exact ⟨hreply, happlication⟩

/-- The application is handed a message and only messages of the application are
sent. -/
theorem exists_sends_dispatch {services : Services}
    (hreplies : services.application.RepliesWithin) (hsession : t.handler.session = some s)
    (id : SessionId) (msgType : MsgType) (m : Message) :
    ∃ s' messages, t.Sends (t.dispatch services id msgType m) s s' messages ∧
      ∀ m ∈ messages, m.IsApplication := by
  have htold := Sends.tell hsession (.received id m)
  have htoldSession : (t.tell (.received id m)).handler.session = some s := hsession
  cases hanswer : services.application.answer t.shared.events id m with
  | ok replies =>
    have hdispatch : t.dispatch services id msgType m =
        replies.foldl (fun t reply => t.send services.now reply) (t.tell (.received id m)) := by
      simp only [dispatch, hanswer]
    obtain ⟨s', messages, hsends, happlication⟩ :=
      exists_sends_replies services.now (hreplies _ _ _ _ hanswer) htoldSession
    rw [hdispatch]
    exact ⟨s', messages, htold.trans hsends, happlication⟩
  | error reject =>
    let refusal := Admin.businessMessageReject m.header.msgSeqNum msgType.text reject
    have hdispatch : t.dispatch services id msgType m =
        (t.tell (.received id m)).send services.now refusal := by
      simp only [dispatch, hanswer, refusal]
    have hrefusal : refusal.IsApplication := ⟨.businessMessageReject, rfl, rfl⟩
    rw [hdispatch]
    refine ⟨_, _, htold.trans (sends_send htoldSession services.now refusal), ?_⟩
    rw [List.nil_append, List.forall_mem_singleton]
    exact hrefusal

theorem process_of_isApplication {services : Services} {id : SessionId} {msgType : MsgType}
    (h : msgType.isAdministrative = false) (m : Message) :
    t.process services id msgType m = t.dispatch services id msgType m := by
  cases msgType <;> first | rfl | contradiction

/-- The turn after the expected number has been counted.  It completes the
numbers that were asked for if it is the last of them. -/
def counted (t : Turn) (s : Session) : Turn :=
  { t with
    handler.session := some s.counted
    handler.resendUntil :=
      if t.handler.resendUntil.any (· ≤ s.counters.nextIncoming) then none
      else t.handler.resendUntil }

/-- The expected number passes the check, whatever was asked for. -/
theorem checkSequence_of_expected (t : Turn) (now : Timestamp) {m : Message}
    (hnumber : m.header.msgSeqNum = some s.counters.nextIncoming) :
    t.checkSequence now s m = (t.counted s, true) := by
  have hduplicate : (m.possDup && decide (s.counters.nextIncoming < s.counters.nextIncoming)) =
      false := by
    rw [decide_eq_false (UInt32.lt_irrefl _), Bool.and_false]
  simp only [checkSequence, hnumber, hduplicate, Session.receive_expected, Bool.false_eq_true,
    if_false]
  rfl

/-- A message under the expected number passes the check of its number. -/
theorem checkSequence_expected (now : Timestamp) {m : Message}
    (hnumber : m.header.msgSeqNum = some s.counters.nextIncoming)
    (hresend : t.handler.resendUntil = none) :
    t.checkSequence now s m =
      ({ t with handler.session := some s.counted }, true) := by
  rw [checkSequence_of_expected t now hnumber, counted]
  simp only [hresend, Option.any_none, Bool.false_eq_true, if_false]

end Turn

namespace Handler

/-- The number that the handler expects next, one without a session. -/
def expects (h : Handler) : UInt32 := (h.session.map (·.counters.nextIncoming)).getD 1

/-- The number of the next message that the handler sends, one without a
session. -/
def nextNumber (h : Handler) : UInt32 := (h.session.map (·.counters.nextOutgoing)).getD 1

/-- The handler holds a session of the identity and waits for nothing to be sent
again. -/
structure IsIn (h : Handler) (phase : Phase) (id : SessionId) : Prop where
  phase : h.phase = phase
  sessionId : h.sessionId? = some id
  resendUntil : h.resendUntil = none

variable {h after : Handler} {s : Session} {m : Message} {phase : Phase} {id : SessionId}

/-- A handler comes to be in a phase with its next numbers, having sent messages. -/
structure Becomes (h after : Handler) (phase : Phase) (id : SessionId) (expected : UInt32)
    (messages : List Message) : Prop where
  isIn : after.IsIn phase id
  role : after.role = h.role
  expects : after.expects = expected
  consecutive : Consecutive h.nextNumber messages after.nextNumber

theorem expects_of_session (hsession : h.session = some s) :
    h.expects = s.counters.nextIncoming := by
  rw [expects, hsession]
  rfl

theorem nextNumber_of_session (hsession : h.session = some s) :
    h.nextNumber = s.counters.nextOutgoing := by
  rw [nextNumber, hsession]
  rfl

theorem nextNumber_of_none (hsession : h.session = none) : h.nextNumber = 1 := by
  rw [nextNumber, hsession]
  rfl

theorem IsIn.exists_session (h' : h.IsIn phase id) : ∃ s, h.session = some s ∧ s.id = id :=
  Option.map_eq_some_iff.1 h'.sessionId

/-- A message of the application under the expected number is counted, and only
messages of the application are sent in answer. -/
theorem IsIn.receive_application (h' : h.IsIn .established id) (services : Services)
    (shared : Shared) (hreplies : services.application.RepliesWithin) (hm : m.IsApplication)
    (hnumber : m.header.msgSeqNum = some h.expects) :
    ∃ messages, (h.receive services shared m).actions = messages.map .send ∧
      h.Becomes (h.receive services shared m).handler .established id (h.expects + 1) messages ∧
      ∀ m ∈ messages, m.IsApplication := by
  obtain ⟨s, hsession, hid⟩ := h'.exists_session
  obtain ⟨msgType, htype, hadministrative⟩ := hm
  rw [expects_of_session hsession] at hnumber
  have hlogon : msgType ≠ .logon := by
    rintro rfl
    contradiction
  have hreset : Turn.isPlainReset msgType m = false := by
    have hne : msgType ≠ .sequenceReset := by
      rintro rfl
      contradiction
    simp [Turn.isPlainReset, hne]
  let t : Turn := { Turn.start h shared with handler.session := some s.counted }
  have hreceive : h.receive services shared m = t.dispatch services s.id msgType m := by
    have hcheck := Turn.checkSequence_expected (t := Turn.start h shared) services.now hnumber
      h'.resendUntil
    have hstart : (Turn.start h shared).handler.session = some s := hsession
    simp only [receive, h'.phase, Turn.traffic, hstart, htype, if_neg hlogon, hreset, hcheck,
      Bool.false_eq_true, if_false]
    exact Turn.process_of_isApplication hadministrative m
  obtain ⟨s', messages, hsends, happlication⟩ :=
    Turn.exists_sends_dispatch (t := t) hreplies rfl s.id msgType m
  have hafter : (h.receive services shared m).handler = { h with session := some s' } := by
    rw [hreceive, hsends.handler]
    rfl
  refine ⟨messages, ?_, ?_, happlication⟩
  · rw [hreceive]
    exact hsends.actions
  · rw [hafter]
    refine ⟨⟨h'.phase, ?_, h'.resendUntil⟩, rfl, ?_, ?_⟩
    · rw [← hid]
      exact congrArg some hsends.id
    · rw [expects_of_session hsession]
      exact hsends.nextIncoming
    · rw [nextNumber_of_session hsession]
      exact hsends.consecutive

/-- A message is stamped in the session of an established handler.  Otherwise the handler
and the message stay as they are. -/
theorem stamping_cases (h : Handler) (now : Timestamp) (m : Message) :
    h.stamp now m = ⟨.error .notEstablished, h, m⟩ ∨
      h.phase = .established ∧ ∃ s, h.session = some s ∧
        h.stamp now m = ⟨.ok s.counters.nextOutgoing, { h with
          session := some (s.stamp now m).1
          logoutSent := h.logoutSent || m.msgType? = some .logout }, (s.stamp now m).2⟩ := by
  rw [stamp]
  split
  · next s hsession hphase => exact .inr ⟨hphase, s, hsession, rfl⟩
  · exact .inl rfl

theorem stamp_eq_of_error {now : Timestamp} {fault : SessionFault}
    (hresult : (h.stamp now m).result = .error fault) :
    h.stamp now m = ⟨.error .notEstablished, h, m⟩ := by
  rcases h.stamping_cases now m with hrefused | ⟨-, s, -, hstamped⟩
  · exact hrefused
  · rw [hstamped] at hresult
    contradiction

/-- Nothing is stamped unless the session is established. -/
theorem stamp_eq_of_ne {now : Timestamp} (hphase : h.phase ≠ .established) :
    h.stamp now m = ⟨.error .notEstablished, h, m⟩ := by
  rcases h.stamping_cases now m with hrefused | ⟨hestablished, -⟩
  · exact hrefused
  · exact absurd hestablished hphase

theorem established_of_stamp {now : Timestamp} {number : UInt32} {stamped : Message}
    (hstamp : h.stamp now m = ⟨.ok number, after, stamped⟩) : h.phase = .established := by
  rcases h.stamping_cases now m with hrefused | ⟨hestablished, -⟩
  · rw [hrefused] at hstamp
    cases hstamp
  · exact hestablished

/-- A message of the application is stamped with the next number. -/
theorem IsIn.stamp_application {now : Timestamp} {number : UInt32} {stamped : Message}
    (h' : h.IsIn .established id) (hm : m.IsApplication)
    (hstamp : h.stamp now m = ⟨.ok number, after, stamped⟩) :
    h.Becomes after .established id h.expects [stamped] ∧ stamped.IsApplication := by
  rcases h.stamping_cases now m with hrefused | ⟨-, s, hsession, hstamped⟩
  · rw [hrefused] at hstamp
    cases hstamp
  rw [hstamped] at hstamp
  cases hstamp
  have hid : s.id = id := Option.some.inj ((congrArg _ hsession).symm.trans h'.sessionId)
  refine ⟨⟨⟨h'.phase, congrArg some hid, h'.resendUntil⟩, rfl, ?_, ?_⟩, hm⟩
  · rw [expects_of_session hsession]
    rfl
  · rw [nextNumber_of_session hsession]
    exact .singleton rfl

end Handler

end FixEngine
