import FixEngine.Proofs.Engine.Authorship

/-!
# Answers to a logout

A logout of the other side is answered with one of this side unless this side has sent
one already.  What the handler remembers are the logouts that it sent itself and those
that the application sent on its own account, as one lemma says of a call and the next
one of a run of calls.  A logout that the application gives as a reply to a message is
sent all the same but not remembered, so that the logout of the other side is answered
with a second one.
-/

namespace FixEngine

namespace Life

/-- What the handler is told while its connection is up. -/
def course (life : Life) : List Call :=
  .connected life.services life.shared :: life.inputs.map .input

end Life

namespace Handler

/-- The messages that a handler hands out in a call. -/
def hands (h : Handler) : Call → List Message
  | .connected services shared => (h.connected services shared).messages
  | .input input => h.handsOut input
  | .disconnected shared => (h.disconnected shared).messages

/-- A message that is handed out in a call is a reply of the application, which was told
of the message that had arrived. -/
inductive RepliesWith (h : Handler) : Call → Message → Prop
  | reply {services : Services} {shared : Shared} {m reply : Message} {s s₀ : Session}
      {replies : List Message} (hsession : h.session = some s)
      (htold : h.tells (.input (.message services shared m)) = [.received s.id m])
      (hanswer : services.application.answer shared.events s.id m = .ok replies)
      (hreply : reply ∈ replies) :
      RepliesWith h (.input (.message services shared m)) (s₀.stamp services.now reply).2

/-- A logout is handed out in a call that is no reply of the application. -/
def SendsLogout (h : Handler) (call : Call) : Prop :=
  ∃ out ∈ h.hands call, out.msgType? = some .logout ∧ ¬h.RepliesWith call out

/-- A logout is handed out in a run of calls that is no reply of the application. -/
def SentLogout (h : Handler) : List Call → Prop
  | [] => False
  | call :: rest => h.SendsLogout call ∨ (h.afterCall call).SentLogout rest

variable {h : Handler} {call : Call} {services : Services} {shared : Shared} {m : Message}
  {life : Life}

/-! ### One call -/

theorem mem_messages_iff {t : Turn} {out : Message} : out ∈ t.messages ↔ .send out ∈ t.actions := by
  rw [Turn.messages, List.mem_filterMap]
  constructor
  · rintro ⟨action, haction, hout⟩
    cases action with
    | send sent => exact Option.some.inj hout ▸ haction
    | disconnect reason => contradiction
  · intro hout
    exact ⟨_, hout, rfl⟩

/-- No logout is sent in a call that hands out messages of other types and replies. -/
theorem not_sendsLogout (hhands : ∀ out ∈ h.hands call,
    out.msgType? ≠ some .logout ∨ h.RepliesWith call out) : ¬h.SendsLogout call := by
  rintro ⟨out, hout, htype, hnot⟩
  exact (hhands out hout).elim (fun hne => hne htype) hnot

/-- A message that arrives and leaves the connection open makes the handler send no
logout, and none is marked as sent. -/
theorem mark_message (hopen : (h.receive services shared m).handler.phase ≠ .closed) :
    (h.receive services shared m).handler.logoutSent = h.logoutSent ∧
      ¬h.SendsLogout (.input (.message services shared m)) := by
  have hsends {out : Message} (hout : out ∈ h.hands (.input (.message services shared m))) :
      .send out ∈ (h.receive services shared m).actions := mem_messages_iff.1 hout
  cases (h.receives_receive services shared m).authored with
  | goesOn hmark hutters =>
    refine ⟨hmark, not_sendsLogout fun out hout => .inl ?_⟩
    obtain ⟨draft, ⟨-, hne⟩, s, rfl⟩ := hutters.exists_draft rfl (hsends hout)
    exact hne
  | closes hclosed => exact absurd hclosed hopen
  | replies hsession hanswer htold hmark hutters =>
    refine ⟨hmark, not_sendsLogout fun out hout => .inr ?_⟩
    obtain ⟨reply, hreply, s, rfl⟩ := hutters.exists_draft rfl (hsends hout)
    exact .reply hsession htold.toldSince_eq hanswer hreply

/-- A logout that the application sends on its own account is marked as sent. -/
theorem mark_stamp (h : Handler) (now : Timestamp) (m : Message) :
    (h.next (.stamp now m)).logoutSent = true ↔
      h.logoutSent = true ∨ h.SendsLogout (.input (.stamp now m)) := by
  rcases h.stamp_cases now m with ⟨hnext, hout⟩ | ⟨-, s, -, hnext, hout⟩
  · rw [hnext]
    refine ⟨.inl, fun hmarked => hmarked.resolve_right (not_sendsLogout ?_)⟩
    rw [hands, hout]
    exact List.forall_mem_nil _
  · rw [hnext, Bool.or_eq_true, decide_eq_true_eq, SendsLogout, hands, hout]
    refine or_congr_right ⟨fun htype => ?_, ?_⟩
    · exact ⟨_, List.mem_singleton_self _, htype, nofun⟩
    · rintro ⟨out, hmem, htype, -⟩
      cases List.mem_singleton.1 hmem
      exact htype

/-- When the connection is up no logout is sent. -/
theorem mark_connected (hnew : h.IsNew) (services : Services) (shared : Shared) :
    (h.connected services shared).handler.logoutSent = false ∧
      ¬h.SendsLogout (.connected services shared) := by
  cases hnew with
  | acceptor strict owner channel => exact ⟨rfl, not_sendsLogout (List.forall_mem_nil _)⟩
  | initiator settings owner channel =>
    have hasks := (Turn.start (initiator settings owner channel) shared).asks_sendLogon services
      settings
    refine ⟨hasks.logoutSent_eq, not_sendsLogout fun out hout => .inl ?_⟩
    obtain ⟨draft, rfl, s, rfl⟩ := hasks.utters.exists_draft rfl (mem_messages_iff.1 hout)
    exact fun h => MsgType.noConfusion (Option.some.inj h)

/-- An input that leaves the connection open marks a logout as sent if it hands one out
that is no reply of the application. -/
theorem mark_next {input : Input} (hopen : (h.next input).phase ≠ .closed) :
    (h.next input).logoutSent = true ↔ h.logoutSent = true ∨ h.SendsLogout (.input input) := by
  cases input with
  | message services shared m =>
    obtain ⟨hmark, hnot⟩ := mark_message hopen
    rw [or_iff_left hnot, next, hmark]
  | stamp now m => exact h.mark_stamp now m

/-! ### Runs -/

theorem after_eq_of_closed (hclosed : h.phase = .closed) (inputs : List Input) :
    h.after inputs = h := by
  induction inputs with
  | nil => rfl
  | cons input rest ih =>
    have hsame := ((isDone_of_closed hclosed).input input).1
    rw [after, List.foldl_cons, hsame]
    exact ih

theorem mark_after {inputs : List Input} (hopen : (h.after inputs).phase ≠ .closed) :
    (h.after inputs).logoutSent = true ↔
      h.logoutSent = true ∨ h.SentLogout (inputs.map .input) := by
  induction inputs generalizing h with
  | nil => exact (or_iff_left id).symm
  | cons input rest ih =>
    have hnext : (h.next input).phase ≠ .closed := by
      intro hclosed
      have hsame : h.after (input :: rest) = h.next input := after_eq_of_closed hclosed rest
      rw [hsame] at hopen
      exact hopen hclosed
    have hrest : (h.after (input :: rest)).logoutSent = true ↔
        (h.next input).logoutSent = true ∨ (h.next input).SentLogout (rest.map .input) := ih hopen
    rw [hrest, mark_next hnext, or_assoc, List.map_cons, SentLogout]
    rfl

/-- As long as the connection is open, a logout is marked as sent if one was handed out
that was no reply of the application. -/
theorem mark_course (hnew : h.IsNew) (life : Life)
    (hopen : ((h.opened life).after life.inputs).phase ≠ .closed) :
    ((h.opened life).after life.inputs).logoutSent = true ↔ h.SentLogout life.course := by
  obtain ⟨hmark, hnot⟩ := mark_connected hnew life.services life.shared
  rw [mark_after hopen, opened, hmark, Life.course, SentLogout, or_iff_right Bool.false_ne_true,
    or_iff_right hnot]
  rfl

/-- A logout that passes the check of its number is answered with a logout unless one is
marked as sent, and closes the connection. -/
theorem receive_logout (htype : m.msgType? = some .logout) (hchecks : h.Checks services shared m true) :
    (h.logoutSent = true ∧ (h.receive services shared m).actions = [.disconnect .logout]) ∨
    (h.logoutSent = false ∧ ∃ answer, answer.msgType? = some .logout ∧
      (h.receive services shared m).actions = [.send answer, .disconnect .logout]) := by
  obtain ⟨hphase, s, msgType, hchecked, hpasses⟩ := hchecks
  have hcheck : (Turn.start h shared).checkSequence services.now s m =
      (((Turn.start h shared).checkSequence services.now s m).1, true) := Prod.ext rfl hpasses
  generalize ((Turn.start h shared).checkSequence services.now s m).1 = t at hcheck
  have ht := Turn.Checked.of_eq hcheck
  obtain rfl := Option.some.inj (hchecked.type.symm.trans htype)
  rw [receive_established hphase, Turn.traffic_of_isChecked hchecked hcheck]
  have hmark : t.handler.logoutSent = h.logoutSent := ht.logoutSent_eq
  have hactions : t.actions = [] := ht.actions_eq
  obtain ⟨_, -, hstamped⟩ := ht.speaks hchecked.session
  obtain ⟨s', hsession, -⟩ := hstamped s hchecked.session
  cases hsent : h.logoutSent with
  | true =>
    refine .inl ⟨rfl, ?_⟩
    simp only [Turn.process, hmark, hsent, if_true, Turn.close, Turn.act, hactions,
      List.nil_append]
  | false =>
    have hanswered : (t.sendLogout services.now none).actions =
        t.actions ++ [.send (s'.stamp services.now (Admin.logout none)).2] :=
      (Turn.sends_send (t := { t with handler.logoutSent := true }) hsession services.now _).actions
    refine .inr ⟨rfl, (s'.stamp services.now (Admin.logout none)).2, rfl, ?_⟩
    simp only [Turn.process, hmark, hsent, Bool.false_eq_true, if_false, Turn.close, Turn.act,
      hanswered, hactions]
    rfl

/-- The logout of the other side closes the connection.  It is answered with a logout
if and only if every logout handed out before on the connection was a reply of the
application. -/
theorem logout_answered_iff (hnew : h.IsNew) (life : Life)
    (htype : m.msgType? = some .logout)
    (hchecks : ((h.opened life).after life.inputs).Checks services shared m true) :
    (h.SentLogout life.course ∧
      (((h.opened life).after life.inputs).receive services shared m).actions =
        [.disconnect .logout]) ∨
    (¬h.SentLogout life.course ∧ ∃ answer, answer.msgType? = some .logout ∧
      (((h.opened life).after life.inputs).receive services shared m).actions =
        [.send answer, .disconnect .logout]) := by
  have hopen : ((h.opened life).after life.inputs).phase ≠ .closed := by
    rw [hchecks.1]
    exact Phase.noConfusion
  rw [← mark_course hnew life hopen, Bool.not_eq_true]
  exact receive_logout htype hchecks

/-- A message of the other side under a number, to an application that says farewell when
it is sent news. -/
def sampleNewsInput (n : UInt32) (m : Message) : Input :=
  let id : SessionId := { senderCompId := "CLIENT", targetCompId := "SERVER" }
  .message ⟨.ofRules [⟨"B", none, .ok [Admin.logout none]⟩], .acceptAll, .epoch, .fresh⟩ .empty
    ((Session.start id "FIX.4.4" n 1).stamp .epoch m).2

/-- The connection of an acceptor that takes up a logon and then some more. -/
def sampleTalk (more : Input) : Life where
  services := ⟨.silent, .acceptAll, .epoch, .fresh⟩
  shared := .empty
  inputs := [sampleInput 1 (Admin.logon 30 false), more]
  final := .empty

/-- The application logs out on its own account, and the logout of the other side is not
answered. -/
theorem logout_answered_iff_sample :
    ∃ (h : Handler) (life : Life) (services : Services) (shared : Shared) (m : Message),
      h.IsNew ∧ m.msgType? = some .logout ∧
      ((h.opened life).after life.inputs).Checks services shared m true ∧
      h.SentLogout life.course ∧
      (((h.opened life).after life.inputs).receive services shared m).actions =
        [.disconnect .logout] := by
  have hnew : (acceptor true 1 none).IsNew := .acceptor true 1 none
  let life := sampleTalk (.stamp .epoch (Admin.logout none))
  let m := ((Session.start { senderCompId := "CLIENT", targetCompId := "SERVER" } "FIX.4.4" 2
    1).stamp .epoch (Admin.logout none)).2
  have hchecks : (((acceptor true 1 none).opened life).after life.inputs).Checks
      life.services .empty m true :=
    ⟨rfl, _, .logout, ⟨rfl, rfl, MsgType.noConfusion, rfl⟩, rfl⟩
  have hsent : (acceptor true 1 none).SentLogout life.course :=
    .inr (.inr (.inl ⟨_, List.mem_singleton_self _, rfl, nofun⟩))
  refine ⟨_, life, life.services, .empty, m, hnew, rfl, hchecks, hsent, ?_⟩
  rcases logout_answered_iff hnew life rfl hchecks with ⟨-, hactions⟩ | ⟨hnot, -⟩
  · exact hactions
  · exact absurd hsent hnot

/-- The application says farewell in a reply, and the logout of the other side is
answered with a second logout. -/
theorem exists_logout_answered_twice :
    ∃ (h : Handler) (life : Life) (services : Services) (shared : Shared) (m : Message),
      h.IsNew ∧ m.msgType? = some .logout ∧
      ((h.opened life).after life.inputs).Checks services shared m true ∧
      (∃ out ∈ h.messages life, out.msgType? = some .logout) ∧
      ∃ answer, answer.msgType? = some .logout ∧
        (((h.opened life).after life.inputs).receive services shared m).actions =
          [.send answer, .disconnect .logout] := by
  let life := sampleTalk (sampleNewsInput 2 (Message.ofType .news []))
  let m := ((Session.start { senderCompId := "CLIENT", targetCompId := "SERVER" } "FIX.4.4" 3
    1).stamp .epoch (Admin.logout none)).2
  have hchecks : (((acceptor true 1 none).opened life).after life.inputs).Checks
      life.services .empty m true :=
    ⟨rfl, _, .logout, ⟨rfl, rfl, MsgType.noConfusion, rfl⟩, rfl⟩
  refine ⟨acceptor true 1 none, life, life.services, .empty, m, .acceptor true 1 none, rfl, hchecks,
    ?_, ?_⟩
  · exact ⟨_, List.mem_cons_of_mem _ (List.mem_singleton_self _), rfl⟩
  · exact ⟨_, rfl, rfl⟩

end Handler

end FixEngine
