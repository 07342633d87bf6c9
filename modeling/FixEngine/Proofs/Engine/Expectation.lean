import FixEngine.Proofs.Engine.Lifetime

/-!
# The expectation of a session

Three operations move the number that a session expects: it is counted, a sequence
reset takes it forward, and a logon that is ahead takes it past the numbers before
it.  None of them moves it back, except that numbers have 32 bits and begin again
at zero when the greatest of them has been counted.
-/

namespace FixEngine

namespace Session

variable {s s' s'' : Session} {m : Message}

/-- What a message does to the expectation of a session.  It does not move back,
unless the greatest number was expected and is counted.  Then the numbers begin
again at zero, or where a sequence reset under this number says. -/
inductive Follows (s : Session) (m : Message) (s' : Session) : Prop
  | forward (hid : s'.id = s.id) (hle : s.counters.nextIncoming ≤ s'.counters.nextIncoming)
  | around (hid : s'.id = s.id) (hlast : s.counters.nextIncoming = 0xFFFFFFFF)
      (hnumber : m.header.msgSeqNum = some 0xFFFFFFFF)
      (hagain : s'.counters.nextIncoming = 0 ∨
        m.msgType? = some .sequenceReset ∧ m.newSeqNo? = some s'.counters.nextIncoming)

theorem Follows.of_eq (hid : s'.id = s.id)
    (heq : s'.counters.nextIncoming = s.counters.nextIncoming) : s.Follows m s' :=
  .forward hid (heq ▸ UInt32.le_refl _)

theorem Follows.refl (s : Session) (m : Message) : s.Follows m s := .of_eq rfl rfl

/-- Whatever is done without touching the expectation follows as well. -/
theorem Follows.trans_eq (h : s.Follows m s') (hid : s''.id = s'.id)
    (heq : s''.counters.nextIncoming = s'.counters.nextIncoming) : s.Follows m s'' := by
  cases h with
  | forward hid' hle => exact .forward (hid.trans hid') (heq ▸ hle)
  | around hid' hlast hnumber hagain =>
    exact .around (hid.trans hid') hlast hnumber (heq ▸ hagain)

/-- A sequence reset takes the expectation further. -/
theorem Follows.trans_reset (h : s.Follows m s') (hid : s''.id = s'.id)
    (htype : m.msgType? = some .sequenceReset)
    (hnumber : m.newSeqNo? = some s''.counters.nextIncoming)
    (hlt : s'.counters.nextIncoming < s''.counters.nextIncoming) : s.Follows m s'' := by
  cases h with
  | forward hid' hle =>
    exact .forward (hid.trans hid') (UInt32.le_trans hle (UInt32.le_of_lt hlt))
  | around hid' hlast hcounted =>
    exact .around (hid.trans hid') hlast hcounted (.inr ⟨htype, hnumber⟩)

/-- The number that was expected is counted. -/
theorem follows_counted (hnumber : m.header.msgSeqNum = some s.counters.nextIncoming) :
    s.Follows m s.counted := by
  have hcounted : s.counted.counters.nextIncoming = s.counters.nextIncoming + 1 := rfl
  by_cases hlast : s.counters.nextIncoming = 0xFFFFFFFF
  · refine .around rfl hlast (hlast ▸ hnumber) (.inl ?_)
    rw [hcounted, hlast]
    rfl
  · refine .forward rfl ?_
    have hmax : s.counters.nextIncoming ≤ 0xFFFFFFFF :=
      UInt32.le_iff_toNat_le.2 (Nat.le_of_lt_succ s.counters.nextIncoming.toNat_lt)
    rw [hcounted, UInt32.le_iff_toNat_le,
      toNat_succ_of_lt (UInt32.lt_of_le_of_ne hmax hlast)]
    exact Nat.le_succ _

theorem follows_skipped (s : Session) (m : Message) (n : UInt32) : s.Follows m (s.skipped n) :=
  .forward rfl (s.le_nextIncoming_advance _)

theorem follows_reset (htype : m.msgType? = some .sequenceReset) : s.Follows m (s.reset m) := by
  rcases s.nextIncoming_reset_cases m with hsame | ⟨n, hnumber, hlt, rfl⟩
  · exact .of_eq (s.id_reset m) hsame
  · exact (Follows.refl s m).trans_reset (s.id_reset m) htype hnumber hlt

end Session

namespace Turn

variable {t t' : Turn} {s s' : Session} {m : Message} {services : Services}

/-- A turn goes on with its session, whose expectation follows the message. -/
def Follows (t : Turn) (m : Message) (s : Session) : Prop :=
  ∃ s', t.handler.session = some s' ∧ s.Follows m s'

theorem Follows.trans_speaks (h : t.Follows m s) (hspeaks : t.Speaks t')
    (hexpects : t'.handler.expects = t.handler.expects) : t'.Follows m s := by
  obtain ⟨s', hsession, hfollows⟩ := h
  obtain ⟨s'', hnext, hid, hsame⟩ := hspeaks.exists_session hsession hexpects
  exact ⟨s'', hnext, hfollows.trans_eq hid hsame⟩

theorem Follows.send (h : t.Follows m s) (now : Timestamp) (answer : Message) :
    (t.send now answer).Follows m s :=
  h.trans_speaks (speaks_send t now answer) (keeps_send t now answer).expects

theorem Follows.refuse (h : t.Follows m s) (now : Timestamp) (reason : DisconnectReason) :
    (t.refuse now reason).Follows m s := by
  have hsent : (t.sendLogout now (some reason.message)).Follows m s :=
    h.trans_speaks (speaks_sendLogout t now _) (keeps_sendLogout t now _).expects
  exact hsent

theorem Follows.process (h : t.Follows m s) {msgType : MsgType}
    (htype : m.msgType? = some msgType) (services : Services) (id : SessionId) :
    (t.process services id msgType m).Follows m s := by
  obtain ⟨s', hsession, hfollows⟩ := h
  obtain ⟨s'', hnext, hid, hsame | ⟨n, rfl, hnumber, hlt, rfl⟩⟩ :=
    exists_session_process hsession services id msgType m
  · exact ⟨s'', hnext, hfollows.trans_eq hid hsame⟩
  · exact ⟨s'', hnext, hfollows.trans_reset hid htype hnumber hlt⟩

theorem Checked.follows {now : Timestamp} {result : Turn × Bool} (h : t.Checked now s m result)
    (hsession : t.handler.session = some s) : result.1.Follows m s := by
  have hrefl : t.Follows m s := ⟨s, hsession, .refl s m⟩
  cases h with
  | unnumbered | repeated | dropped | tolerated => exact hrefl
  | counted hnumber => exact ⟨_, rfl, Session.follows_counted hnumber⟩
  | tooLow => exact hrefl.refuse now _
  | @requested n =>
    have hmarked : Follows { t with handler.resendUntil := some n } m s := hrefl
    exact hmarked.send now _

theorem Treated.follows (h : t.Treated services m t') (hsession : t.handler.session = some s) :
    t'.Follows m s := by
  have hrefl : t.Follows m s := ⟨s, hsession, .refl s m⟩
  cases h with
  | ignored => exact hrefl
  | logon => exact hrefl.refuse services.now _
  | reset htype =>
    exact ⟨_, session_resetSequence hsession m, Session.follows_reset htype⟩
  | stopped hchecked hcheck =>
    cases hchecked.session.symm.trans hsession
    exact (Checked.of_eq hcheck).follows hsession
  | processed hchecked hcheck =>
    cases hchecked.session.symm.trans hsession
    exact ((Checked.of_eq hcheck).follows hsession).process hchecked.type services _

theorem Hears.follows (h : t.Hears services m t') (hsession : t.handler.session = some s) :
    t'.Follows m s := by
  have hrefl : t.Follows m s := ⟨s, hsession, .refl s m⟩
  cases h with
  | ignored => exact hrefl
  | unnumbered => exact hrefl
  | inOrder hsome hnumber =>
    cases hsome.symm.trans hsession
    exact ⟨_, rfl, Session.follows_counted hnumber⟩
  | @ahead s n hsome =>
    cases hsome.symm.trans hsession
    have hskipped : ((t.withSession (s.skipped n)).establish s.id).Follows m s :=
      ⟨_, rfl, s.follows_skipped m n⟩
    exact hskipped.send services.now _
  | stale hsome =>
    cases hsome.symm.trans hsession
    have hsame : (t.withSession s).Follows m s := ⟨s, rfl, .refl s m⟩
    exact hsame.refuse services.now _

/-- A session that a logon opens goes on from the number of the logon, unless it
is given up at once since the number is too low. -/
theorem Accepts.follows (h : t.Accepts services m t') (hopens : t.Opens services m) :
    t'.Follows m (.ofLogon services m) ∨
      (t'.handler.session = none ∧
        m.header.msgSeqNum.any (· < (Session.ofLogon services m).counters.nextIncoming)) := by
  cases h with
  | unknown haccepts => exact absurd (haccepts.symm.trans hopens.accepts) Bool.false_ne_true
  | unnumbered _ hnumber =>
    have hnumbered := hopens.numbered
    rw [hnumber] at hnumbered
    contradiction
  | duplicate _ _ hheld => exact absurd hopens.free hheld
  | inOrder _ _ hnumber =>
    have hcounted : Follows ((t.registered (.ofLogon services m)).withSession
        (Session.ofLogon services m).counted) m (.ofLogon services m) :=
      ⟨_, rfl, Session.follows_counted hnumber⟩
    exact .inl (hcounted.send services.now (Admin.logonAnswer m))
  | @ahead n =>
    have hskipped : Follows ((t.registered (.ofLogon services m)).withSession
        ((Session.ofLogon services m).skipped n)) m (.ofLogon services m) :=
      ⟨_, rfl, Session.follows_skipped _ m n⟩
    have hanswered := hskipped.send services.now (Admin.logonAnswer m)
    exact .inl (hanswered.send services.now
      (Admin.resendRequest (Session.ofLogon services m).counters.nextIncoming (n - 1)))
  | stale _ _ hnumber hlow =>
    refine .inr ⟨session_release _, ?_⟩
    rw [hnumber, Option.any_some, decide_eq_true hlow]

end Turn

namespace Handler

variable {h : Handler} {services : Services} {shared : Shared} {m : Message} {s : Session}

/-- A message that arrives in a session does not move its expectation back. -/
theorem Receives.follows {t : Turn} (hreceives : h.Receives services shared m t)
    (hpoised : h.IsPoised) (hsession : h.session = some s) : t.Follows m s := by
  have hrefl : (Turn.start h shared).Follows m s := ⟨s, hsession, .refl s m⟩
  cases hreceives with
  | traffic _ htreated => exact htreated.follows hsession
  | logon hphase =>
    have hnone := hpoised hphase
    rw [hsession] at hnone
    contradiction
  | answer _ hhears => exact hhears.follows hsession
  | closed => exact hrefl
  | ignored => exact hrefl

/-- A logon for which a session is registered moves its expectation past the number
of the logon, or the session is given up. -/
theorem Registers.follows (hregisters : h.Registers services shared m s) :
    (h.receive services shared m).Follows m s ∨
      ((h.receive services shared m).handler.session = none ∧
        m.header.msgSeqNum.any (· < s.counters.nextIncoming)) := by
  rw [hregisters.receive_eq, hregisters.session]
  exact ((Turn.start h shared).accepts_acceptLogon services m).follows hregisters.opens

/-- A message that the application sends leaves the expectation alone. -/
theorem exists_session_stamp (hsession : h.session = some s) (now : Timestamp) (m : Message) :
    ∃ s', (h.next (.stamp now m)).session = some s' ∧ s'.id = s.id ∧
      s'.counters.nextIncoming = s.counters.nextIncoming := by
  rcases h.stamp_cases now m with ⟨hnext, -⟩ | ⟨-, s', hsome, hnext, -⟩
  · rw [hnext]
    exact ⟨s, hsession, rfl, rfl⟩
  · cases hsome.symm.trans hsession
    rw [hnext]
    exact ⟨_, rfl, rfl, rfl⟩

/-- After any run of a handler, a message that arrives in its session does not move
the expectation back, except that the numbers begin again when the greatest of them
has been counted.  The same holds of a logon for which the session is registered;
the session is given up at once if the logon has too low a number.  A message that
the application sends leaves the expectation alone. -/
theorem expectation_follows (hnew : h.IsNew) (life : Life) (inputs : List Input) :
    (∀ services shared m s, ((h.opened life).after inputs).session = some s →
      ∃ s', (((h.opened life).after inputs).next (.message services shared m)).session = some s' ∧
        s.Follows m s') ∧
    (∀ services shared m s, ((h.opened life).after inputs).Registers services shared m s →
      (∃ s', (((h.opened life).after inputs).next (.message services shared m)).session =
          some s' ∧ s.Follows m s') ∨
        ((((h.opened life).after inputs).next (.message services shared m)).session = none ∧
          m.header.msgSeqNum.any (· < s.counters.nextIncoming))) ∧
    (∀ now m s, ((h.opened life).after inputs).session = some s →
      ∃ s', (((h.opened life).after inputs).next (.stamp now m)).session = some s' ∧
        s'.id = s.id ∧ s'.counters.nextIncoming = s.counters.nextIncoming) := by
  have hpoised := (isPoised_opened hnew life).after inputs
  refine ⟨?_, ?_, ?_⟩
  · intro services shared m s hsession
    exact (receives_receive _ services shared m).follows hpoised hsession
  · intro services shared m s hregisters
    exact hregisters.follows
  · intro now m s hsession
    exact exists_session_stamp hsession now m

/-- A sequence reset that takes the expectation to the greatest number. -/
def greatestReset : Message :=
  Message.ofType .sequenceReset [Admin.numberEntry Tag.newSeqNo 0xFFFFFFFF]

/-- The first message of the other side is a logon, and then a sequence reset
takes the expectation to the greatest number. -/
def greatestInputs : List Input :=
  [sampleInput 1 (Admin.logon 30 false), sampleInput 2 greatestReset]

/-- The reset is taken up in the session that the logon opened, and the expectation
follows it. -/
theorem expectation_follows_sample :
    ∃ (h : Handler) (services : Services) (shared : Shared) (m : Message) (s s' : Session),
      h.IsNew ∧ greatestInputs[1]? = some (.message services shared m) ∧
      ((h.opened sampleLife).after (greatestInputs.take 1)).session = some s ∧
      ((h.opened sampleLife).after greatestInputs).session = some s' ∧ s.Follows m s' := by
  have hnew : (acceptor true 1 none).IsNew := .acceptor true 1 none
  have hsession : (((acceptor true 1 none).opened sampleLife).after
      (greatestInputs.take 1)).session =
        some ⟨⟨"SERVER", "CLIENT", none, none, none, none⟩, "FIX.4.4", ⟨2, 2⟩⟩ := rfl
  obtain ⟨s', hnext, hfollows⟩ := (expectation_follows hnew sampleLife (greatestInputs.take 1)).1
    ⟨.silent, .acceptAll, .epoch, .fresh⟩ .empty _ _ hsession
  exact ⟨_, _, _, _, _, s', hnew, rfl, hsession, hnext, hfollows⟩

/-- When the greatest number is expected and arrives, the expectation goes back to
zero. -/
theorem exists_expectation_wraps :
    ∃ (h : Handler) (input : Input) (s s' : Session), h.IsNew ∧
      ((h.opened sampleLife).after greatestInputs).session = some s ∧
      (((h.opened sampleLife).after greatestInputs).next input).session = some s' ∧
      s.counters.nextIncoming = 4294967295 ∧ s'.counters.nextIncoming = 0 :=
  ⟨acceptor true 1 none, sampleInput 0xFFFFFFFF (Message.ofType .news []), _, _,
    .acceptor true 1 none, rfl, rfl, rfl, rfl⟩

end Handler

end FixEngine
