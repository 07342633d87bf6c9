import FixEngine.Proofs.Engine.Opening

/-!
# What a turn hands out

Whatever a turn sends is stamped for the session that it holds, and in the order
in which it is handed out: `Turn.Speaks`.  A turn closes the connection after
everything that it sends, if at all, and `Turn.Ends` lists the ways in which it
comes out.
-/

namespace FixEngine

/-! ### Stamped messages -/

theorem Consecutive.getElem? {first last : UInt32} {messages : List Message}
    (h : Consecutive first messages last) {k : Nat} {m : Message} (hm : messages[k]? = some m) :
    m.header.msgSeqNum = some (first + UInt32.ofNat k) := by
  induction messages generalizing first k with
  | nil => contradiction
  | cons head rest ih =>
    obtain ⟨hhead, hrest⟩ := h
    cases k with
    | zero =>
      cases Option.some.inj hm
      rw [hhead]
      exact congrArg some (UInt32.add_zero first).symm
    | succ k =>
      rw [ih hrest hm, UInt32.add_assoc, UInt32.ofNat_add, UInt32.add_comm (UInt32.ofNat k)]
      rfl

/-- The number that comes next is as many numbers further as there are messages. -/
theorem Consecutive.last_eq {first last : UInt32} {messages : List Message}
    (h : Consecutive first messages last) : last = first + UInt32.ofNat messages.length := by
  induction messages generalizing first with
  | nil =>
    cases h
    exact (UInt32.add_zero _).symm
  | cons head rest ih =>
    rw [ih h.2, List.length_cons, UInt32.add_assoc, UInt32.ofNat_add,
      UInt32.add_comm (UInt32.ofNat rest.length)]
    rfl

namespace Session

/-- A message carries the version of a session and the identity as this side sees
it. -/
structure Marks (s : Session) (m : Message) : Prop where
  beginString : m.header.beginString = s.beginString
  id : SessionId.ofHeader m.header = s.id

/-- A session becomes another one by stamping messages one after another. -/
structure Stamps (s : Session) (messages : List Message) (s' : Session) : Prop where
  id : s'.id = s.id
  beginString : s'.beginString = s.beginString
  marks : ∀ m ∈ messages, s.Marks m
  consecutive : Consecutive s.counters.nextOutgoing messages s'.counters.nextOutgoing

variable {s s' s'' : Session} {messages more : List Message}

theorem Stamps.refl (s : Session) : s.Stamps [] s :=
  ⟨rfl, rfl, List.forall_mem_nil _, rfl⟩

theorem Stamps.trans (h : s.Stamps messages s') (h' : s'.Stamps more s'') :
    s.Stamps (messages ++ more) s'' where
  id := h'.id.trans h.id
  beginString := h'.beginString.trans h.beginString
  marks := by
    rw [List.forall_mem_append]
    refine ⟨h.marks, ?_⟩
    intro m hm
    have hmarks := h'.marks m hm
    exact ⟨hmarks.beginString.trans h.beginString, hmarks.id.trans h.id⟩
  consecutive := h.consecutive.append h'.consecutive

theorem stamps_stamp (s : Session) (now : Timestamp) (m : Message) :
    s.Stamps [(s.stamp now m).2] (s.stamp now m).1 where
  id := rfl
  beginString := rfl
  marks := List.forall_mem_singleton.2 ⟨rfl, rfl⟩
  consecutive := .singleton rfl

theorem stamps_counted (s : Session) : s.Stamps [] s.counted :=
  ⟨rfl, rfl, List.forall_mem_nil _, rfl⟩

theorem stamps_advance (s : Session) (n : UInt32) : s.Stamps [] (s.advance n) :=
  ⟨rfl, rfl, List.forall_mem_nil _, rfl⟩

theorem stamps_skipped (s : Session) (n : UInt32) : s.Stamps [] (s.skipped n) :=
  s.stamps_advance _

/-- Messages that a session stamps are numbered on from its next number. -/
theorem Stamps.getElem? (h : s.Stamps messages s') {k : Nat} {m : Message}
    (hm : messages[k]? = some m) :
    m.header.msgSeqNum = some (s.counters.nextOutgoing + UInt32.ofNat k) ∧ s.Marks m :=
  ⟨h.consecutive.getElem? hm, h.marks m (List.mem_of_getElem? hm)⟩

end Session

namespace Turn

variable {t t' t'' : Turn} {s : Session} {m : Message}

/-! ### Speaking in a session -/

/-- A turn goes on by sending messages, and stamps all of them for the session
that it holds. -/
def Speaks (t t' : Turn) : Prop :=
  ∃ messages, t'.actions = t.actions ++ messages.map .send ∧
    ∀ s, t.handler.session = some s → ∃ s', t'.handler.session = some s' ∧ s.Stamps messages s'

/-- A turn goes on in silence, and leaves its session the next number. -/
theorem speaks_of_silent (hactions : t'.actions = t.actions)
    (hsession : ∀ s, t.handler.session = some s →
      ∃ s', t'.handler.session = some s' ∧ s.Stamps [] s') : t.Speaks t' :=
  ⟨[], by rw [hactions, List.map_nil, List.append_nil], hsession⟩

/-- A turn goes on in silence with the session that it had. -/
theorem speaks_of_same (hactions : t'.actions = t.actions)
    (hsession : t'.handler.session = t.handler.session) : t.Speaks t' :=
  speaks_of_silent hactions fun s hs => ⟨s, hsession.trans hs, .refl s⟩

/-- A turn goes on in silence with another session, which begins where the one
that it had goes on. -/
theorem speaks_of_session {s' : Session} (hsession : t.handler.session = some s)
    (hstamps : s.Stamps [] s') (hactions : t'.actions = t.actions)
    (hnext : t'.handler.session = some s') : t.Speaks t' := by
  refine speaks_of_silent hactions ?_
  intro s₀ hs₀
  cases hsession.symm.trans hs₀
  exact ⟨s', hnext, hstamps⟩

theorem Speaks.refl (t : Turn) : t.Speaks t := speaks_of_same rfl rfl

theorem Speaks.trans (h : t.Speaks t') (h' : t'.Speaks t'') : t.Speaks t'' := by
  obtain ⟨messages, hactions, hsession⟩ := h
  obtain ⟨more, hactions', hsession'⟩ := h'
  refine ⟨messages ++ more, ?_, ?_⟩
  · rw [hactions', hactions, List.map_append, List.append_assoc]
  · intro s hs
    obtain ⟨s', hs', hstamps⟩ := hsession s hs
    obtain ⟨s'', hs'', hstamps'⟩ := hsession' s' hs'
    exact ⟨s'', hs'', hstamps.trans hstamps'⟩

theorem speaks_send (t : Turn) (now : Timestamp) (m : Message) : t.Speaks (t.send now m) := by
  cases hsession : t.handler.session with
  | none =>
    rw [send_of_none hsession]
    exact .refl t
  | some s =>
    have hsends := sends_send hsession now m
    refine ⟨_, hsends.actions, ?_⟩
    intro s' hs'
    cases hsession.symm.trans hs'
    refine ⟨_, ?_, s.stamps_stamp now m⟩
    rw [hsends.handler]

theorem speaks_sendLogout (t : Turn) (now : Timestamp) (text : Option String) :
    t.Speaks (t.sendLogout now text) := by
  have hmark : t.Speaks { t with handler.logoutSent := true } := speaks_of_same rfl rfl
  exact hmark.trans (speaks_send _ now _)

theorem speaks_replies (t : Turn) (now : Timestamp) (replies : List Message) :
    t.Speaks (replies.foldl (fun t reply => t.send now reply) t) := by
  induction replies generalizing t with
  | nil => exact .refl t
  | cons reply rest ih => exact (speaks_send t now reply).trans (ih _)

theorem speaks_dispatch (t : Turn) (services : Services) (id : SessionId) (msgType : MsgType)
    (m : Message) : t.Speaks (t.dispatch services id msgType m) := by
  have htold : t.Speaks (t.tell (.received id m)) := speaks_of_same rfl rfl
  unfold dispatch
  split
  · exact htold.trans (speaks_replies _ services.now _)
  · exact htold.trans (speaks_send _ services.now _)

theorem speaks_counted (hsession : t.handler.session = some s) : t.Speaks (t.counted s) :=
  speaks_of_session hsession s.stamps_counted rfl rfl

theorem speaks_withSession {s' : Session} (hsession : t.handler.session = some s)
    (hstamps : s.Stamps [] s') : t.Speaks (t.withSession s') :=
  speaks_of_session hsession hstamps rfl rfl

theorem speaks_resetSequence (t : Turn) (m : Message) : t.Speaks (t.resetSequence m) := by
  unfold resetSequence
  split
  · split
    · refine speaks_of_silent rfl ?_
      intro s hs
      exact ⟨_, congrArg (Option.map _) hs, s.stamps_advance _⟩
    · exact .refl t
  · exact .refl t

theorem speaks_establish (t : Turn) (id : SessionId) : t.Speaks (t.establish id) :=
  speaks_of_same rfl rfl

/-! ### How a turn comes out -/

/-- A turn goes on in its session, or it closes the connection after all that it
sends, and may give the session up at once. -/
inductive Ends (t : Turn) : Turn → Prop
  | goesOn {t' : Turn} (h : t.Speaks t') : Ends t t'
  | closes {t' : Turn} (h : t.Speaks t') (reason : DisconnectReason) : Ends t (t'.close reason)
  | releases {t' : Turn} (h : t.Speaks t') (reason : DisconnectReason) :
      Ends t (t'.close reason).release

theorem ends_refuse (t : Turn) (now : Timestamp) (reason : DisconnectReason) :
    t.Ends (t.refuse now reason) :=
  .closes (speaks_sendLogout t now _) reason

theorem Speaks.trans_ends (h : t.Speaks t') (h' : t'.Ends t'') : t.Ends t'' := by
  cases h' with
  | goesOn h' => exact .goesOn (h.trans h')
  | closes h' reason => exact .closes (h.trans h') reason
  | releases h' reason => exact .releases (h.trans h') reason

/-- A message is processed within the session, and a logout closes the connection
after that. -/
theorem exists_speaks_process (t : Turn) (services : Services) (id : SessionId)
    (msgType : MsgType) (m : Message) :
    ∃ t', t.Speaks t' ∧ (t.process services id msgType m = t' ∨
      t.process services id msgType m = t'.close .logout) := by
  cases msgType with
  | heartbeat => exact ⟨t, .refl t, .inl rfl⟩
  | testRequest => exact ⟨_, speaks_send t services.now _, .inl rfl⟩
  | logout =>
    have hanswered :
        t.Speaks (if t.handler.logoutSent then t else t.sendLogout services.now none) := by
      split
      · exact .refl t
      · exact speaks_sendLogout t services.now none
    exact ⟨_, hanswered, .inr rfl⟩
  | sequenceReset => exact ⟨_, speaks_resetSequence t m, .inl rfl⟩
  | _ => exact ⟨_, speaks_dispatch t services id _ m, .inl rfl⟩

/-- A turn that goes on in its session without touching the expectation has the
session with the same expectation. -/
theorem Speaks.exists_session (hspeaks : t.Speaks t') (hsession : t.handler.session = some s)
    (hexpects : t'.handler.expects = t.handler.expects) :
    ∃ s', t'.handler.session = some s' ∧ s'.id = s.id ∧
      s'.counters.nextIncoming = s.counters.nextIncoming := by
  obtain ⟨messages, -, hstamps⟩ := hspeaks
  obtain ⟨s', hs', hstamped⟩ := hstamps s hsession
  refine ⟨s', hs', hstamped.id, ?_⟩
  rw [← Handler.expects_of_session hs', hexpects, Handler.expects_of_session hsession]

/-- A message that is processed leaves the expectation alone, or it is a sequence
reset that moves it forward. -/
theorem exists_session_process (hsession : t.handler.session = some s) (services : Services)
    (id : SessionId) (msgType : MsgType) (m : Message) :
    ∃ s', (t.process services id msgType m).handler.session = some s' ∧ s'.id = s.id ∧
      (s'.counters.nextIncoming = s.counters.nextIncoming ∨
        ∃ n, msgType = .sequenceReset ∧ m.newSeqNo? = some n ∧ s.counters.nextIncoming < n ∧
          s'.counters.nextIncoming = n) := by
  by_cases hreset : msgType = .sequenceReset
  · subst hreset
    refine ⟨s.reset m, session_resetSequence hsession m, s.id_reset m, ?_⟩
    rcases s.nextIncoming_reset_cases m with hsame | ⟨n, hnumber, hlt, hmoved⟩
    · exact .inl hsame
    · exact .inr ⟨n, rfl, hnumber, hlt, hmoved⟩
  · have hexpects := (keeps_process hreset t services id m).expects
    obtain ⟨t', hspeaks, hprocess | hprocess⟩ := t.exists_speaks_process services id msgType m
    all_goals
      rw [hprocess] at hexpects ⊢
      obtain ⟨s', hs', hid, hsame⟩ := hspeaks.exists_session hsession hexpects
      exact ⟨s', hs', hid, .inl hsame⟩

theorem ends_process (t : Turn) (services : Services) (id : SessionId) (msgType : MsgType)
    (m : Message) : t.Ends (t.process services id msgType m) := by
  obtain ⟨t', hspeaks, hprocess | hprocess⟩ := t.exists_speaks_process services id msgType m
  all_goals rw [hprocess]
  · exact .goesOn hspeaks
  · exact .closes hspeaks .logout

theorem Checked.ends {now : Timestamp} {result : Turn × Bool}
    (hsession : t.handler.session = some s) (h : t.Checked now s m result) : t.Ends result.1 := by
  cases h with
  | unnumbered | repeated | dropped | tolerated => exact .goesOn (.refl t)
  | counted => exact .goesOn (speaks_counted hsession)
  | tooLow => exact ends_refuse t now _
  | @requested n =>
    have hmark : t.Speaks { t with handler.resendUntil := some n } := speaks_of_same rfl rfl
    exact .goesOn (hmark.trans (speaks_send _ now _))

theorem Checked.speaks {now : Timestamp} (hsession : t.handler.session = some s)
    (h : t.Checked now s m (t', true)) : t.Speaks t' := by
  cases h with
  | unnumbered | repeated | tolerated => exact .refl t
  | counted => exact speaks_counted hsession

theorem Treated.ends {services : Services} (h : t.Treated services m t') : t.Ends t' := by
  cases h with
  | ignored => exact .goesOn (.refl t)
  | logon => exact ends_refuse t services.now .duplicateLogon
  | reset => exact .goesOn (speaks_resetSequence t m)
  | stopped hchecked hcheck => exact (Checked.of_eq hcheck).ends hchecked.session
  | processed hchecked hcheck =>
    exact ((Checked.of_eq hcheck).speaks hchecked.session).trans_ends
      (ends_process _ services _ _ m)

theorem Hears.ends {services : Services} {logon : Message} (h : t.Hears services logon t') :
    t.Ends t' := by
  cases h with
  | ignored => exact .goesOn (.refl t)
  | unnumbered => exact .closes (.refl t) .missingSequenceNumber
  | @inOrder s hsession =>
    have hcounted := speaks_withSession hsession s.stamps_counted
    exact .goesOn (hcounted.trans (speaks_establish _ s.id))
  | @ahead s n hsession =>
    have hskipped := speaks_withSession hsession (s.stamps_skipped n)
    exact .goesOn ((hskipped.trans (speaks_establish _ s.id)).trans (speaks_send _ services.now _))
  | @stale s n hsession =>
    exact (speaks_withSession hsession (.refl s)).trans_ends (ends_refuse _ services.now _)

/-- An accepted logon opens a session: it has a number, and nobody holds its
identity. -/
structure Opens (t : Turn) (services : Services) (logon : Message) : Prop where
  accepts : services.accepts logon = true
  numbered : logon.header.msgSeqNum.isSome = true
  free : t.IsFree (.ofLogon services logon)

/-- A logon that opens a session is answered in it, and any other closes the
connection. -/
theorem Accepts.ends {services : Services} {logon : Message} (h : t.Accepts services logon t')
    (hsession : t.handler.session = none) :
    (¬t.Opens services logon ∧ t.Ends t') ∨
      (t.Opens services logon ∧ (t.registered (.ofLogon services logon)).Ends t') := by
  cases h with
  | unknown haccepts =>
    refine .inl ⟨?_, .closes (.refl t) .authenticationFailed⟩
    intro hopens
    exact Bool.false_ne_true (haccepts.symm.trans hopens.accepts)
  | unnumbered _ hnumber =>
    refine .inl ⟨?_, .closes (.refl t) .missingSequenceNumber⟩
    intro hopens
    have hnumbered := hopens.numbered
    rw [hnumber] at hnumbered
    contradiction
  | duplicate _ _ hheld =>
    refine .inl ⟨fun hopens => hheld hopens.free, .closes ⟨[_], rfl, ?_⟩ .duplicateSession⟩
    intro s hs
    cases hsession.symm.trans hs
  | inOrder haccepts hfree hnumber =>
    have hopens : t.Opens services logon := ⟨haccepts, by rw [hnumber]; rfl, hfree⟩
    have hcounted := speaks_withSession (t := t.registered (.ofLogon services logon)) rfl
      (Session.stamps_counted _)
    have hanswered := hcounted.trans (speaks_send _ services.now (Admin.logonAnswer logon))
    exact .inr ⟨hopens, .goesOn (hanswered.trans (speaks_establish _ _))⟩
  | @ahead n haccepts hfree hnumber =>
    have hopens : t.Opens services logon := ⟨haccepts, by rw [hnumber]; rfl, hfree⟩
    have hskipped := speaks_withSession (t := t.registered (.ofLogon services logon)) rfl
      (Session.stamps_skipped _ n)
    have hanswered := hskipped.trans (speaks_send _ services.now (Admin.logonAnswer logon))
    exact .inr ⟨hopens, .goesOn ((hanswered.trans (speaks_send _ services.now _)).trans
      (speaks_establish _ _))⟩
  | stale haccepts hfree hnumber =>
    have hopens : t.Opens services logon := ⟨haccepts, by rw [hnumber]; rfl, hfree⟩
    have hsame := speaks_withSession (t := t.registered (.ofLogon services logon)) rfl (.refl _)
    exact .inr ⟨hopens, .releases (hsame.trans (speaks_sendLogout _ services.now _)) _⟩

/-- The initiating side sends its logon in the session that it asks for, and
closes the connection if the identity is held. -/
theorem Asks.ends {services : Services} {settings : Settings} (h : t.Asks services settings t') :
    (¬t.IsFree (.ofSettings services settings) ∧ t.Ends t') ∨
      (t.IsFree (.ofSettings services settings) ∧
        (t.registered (.ofSettings services settings)).Ends t') := by
  cases h with
  | duplicate hheld => exact .inl ⟨hheld, .closes (.refl t) .duplicateSession⟩
  | asked hfree =>
    have hsent := speaks_send (t.registered (.ofSettings services settings)) services.now
      (Admin.logonOf settings)
    exact .inr ⟨hfree, .goesOn (hsent.trans (speaks_of_same rfl rfl))⟩

end Turn

end FixEngine
