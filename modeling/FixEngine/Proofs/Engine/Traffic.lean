import FixEngine.Proofs.Engine.Sending

/-!
# Messages of an established session

A message of an established session is treated in one of a few ways.
`Turn.Checked` lists what the check of its number can come to, and
`Turn.Treated` what becomes of the message as a whole.  Everything that a turn
sends leaves alone what the handler knows of the numbers of the other side, which
is what `Turn.Keeps` says.
-/

namespace FixEngine

namespace Session

/-- A received number is the expected one, or below it, or above it. -/
theorem receive_cases (s : Session) (n : UInt32) :
    (n = s.counters.nextIncoming ∧ s.receive n = (.inOrder, s.counted)) ∨
    (n < s.counters.nextIncoming ∧ s.receive n = (.tooLow s.counters.nextIncoming n, s)) ∨
    (s.counters.nextIncoming < n ∧ s.receive n = (.gap s.counters.nextIncoming n, s)) := by
  by_cases heq : n = s.counters.nextIncoming
  · rw [heq]
    exact .inl ⟨rfl, s.receive_expected⟩
  by_cases hlow : n < s.counters.nextIncoming
  · refine .inr (.inl ⟨hlow, ?_⟩)
    simp only [receive, Counters.receive, Counters.compareIncoming, if_neg heq, if_pos hlow]
  · have hhigh : s.counters.nextIncoming < n :=
      UInt32.lt_of_le_of_ne (UInt32.not_lt.1 hlow) (Ne.symm heq)
    refine .inr (.inr ⟨hhigh, ?_⟩)
    simp only [receive, Counters.receive, Counters.compareIncoming, if_neg heq, if_neg hlow]

theorem le_nextIncoming_advance (s : Session) (n : UInt32) :
    s.counters.nextIncoming ≤ (s.advance n).counters.nextIncoming := by
  have hmax : (s.advance n).counters.nextIncoming =
      if s.counters.nextIncoming ≤ n then n else s.counters.nextIncoming := rfl
  rw [hmax]
  split
  · assumption
  · exact UInt32.le_refl _

end Session

/-- The number that a sequence reset gives, if it is one of 32 bits. -/
def Message.newSeqNo? (m : Message) : Option UInt32 :=
  (m.integer? Tag.newSeqNo).bind fun n =>
    if 0 ≤ n.toInt ∧ n.toInt < 4294967296 then some (UInt32.ofNat n.toInt.toNat) else none

namespace Session

/-- The session after a sequence reset. -/
def reset (s : Session) (m : Message) : Session :=
  match m.newSeqNo? with
  | some n => s.advance n
  | none => s

@[simp]
theorem id_reset (s : Session) (m : Message) : (s.reset m).id = s.id := by
  unfold reset
  split <;> rfl

/-- A sequence reset leaves the expectation alone, or moves it forward to the
number that it gives. -/
theorem nextIncoming_reset_cases (s : Session) (m : Message) :
    (s.reset m).counters.nextIncoming = s.counters.nextIncoming ∨
      ∃ n, m.newSeqNo? = some n ∧ s.counters.nextIncoming < n ∧
        (s.reset m).counters.nextIncoming = n := by
  cases hnumber : m.newSeqNo? with
  | none =>
    refine .inl ?_
    simp only [reset, hnumber]
  | some n =>
    have hmax : (s.reset m).counters.nextIncoming =
        if s.counters.nextIncoming ≤ n then n else s.counters.nextIncoming := by
      simp only [reset, hnumber]
      rfl
    rw [hmax]
    by_cases hlt : s.counters.nextIncoming < n
    · rw [if_pos (UInt32.le_of_lt hlt)]
      exact .inr ⟨n, rfl, hlt, rfl⟩
    · refine .inl ?_
      split
      · next hle => exact UInt32.le_antisymm (UInt32.not_lt.1 hlt) hle
      · rfl

end Session

namespace Turn

variable {t t' t'' : Turn} {s s' : Session} {m : Message}

/-! ### What sending leaves alone -/

/-- A turn goes on in the phase in which it was, or closes the connection. -/
structure Stays (t t' : Turn) : Prop where
  strict : t'.handler.strict = t.handler.strict
  phase : t'.handler.phase = t.handler.phase ∨ t'.handler.phase = .closed

theorem Stays.refl (t : Turn) : t.Stays t := ⟨rfl, .inl rfl⟩

theorem Stays.trans (h : t.Stays t') (h' : t'.Stays t'') : t.Stays t'' where
  strict := h'.strict.trans h.strict
  phase := by
    rcases h'.phase with hphase | hclosed
    · rw [hphase]
      exact h.phase
    · exact .inr hclosed

/-- A turn goes on without touching what the handler knows of the numbers of the
other side; it may close the connection. -/
structure Keeps (t t' : Turn) : Prop extends t.Stays t' where
  expects : t'.handler.expects = t.handler.expects
  resendUntil : t'.handler.resendUntil = t.handler.resendUntil

theorem Keeps.refl (t : Turn) : t.Keeps t := ⟨.refl t, rfl, rfl⟩

theorem Keeps.trans (h : t.Keeps t') (h' : t'.Keeps t'') : t.Keeps t'' where
  toStays := h.toStays.trans h'.toStays
  expects := h'.expects.trans h.expects
  resendUntil := h'.resendUntil.trans h.resendUntil

theorem Sends.keeps {messages : List Message} (h : t.Sends t' s s' messages) : t.Keeps t' := by
  refine ⟨⟨?_, .inl ?_⟩, ?_, ?_⟩
  case refine_3 =>
    rw [Handler.expects_of_session h.session, h.handler]
    exact h.nextIncoming
  all_goals rw [h.handler]

theorem send_of_none (hsession : t.handler.session = none) (now : Timestamp) (m : Message) :
    t.send now m = t := by
  simp only [send, hsession]

theorem keeps_send (t : Turn) (now : Timestamp) (m : Message) : t.Keeps (t.send now m) := by
  cases hsession : t.handler.session with
  | none =>
    rw [send_of_none hsession]
    exact .refl t
  | some s => exact (sends_send hsession now m).keeps

@[simp]
theorem shared_send (t : Turn) (now : Timestamp) (m : Message) :
    (t.send now m).shared = t.shared := by
  unfold send
  split <;> rfl

theorem keeps_tell (t : Turn) (event : Event) : t.Keeps (t.tell event) :=
  ⟨⟨rfl, .inl rfl⟩, rfl, rfl⟩

theorem keeps_close (t : Turn) (reason : DisconnectReason) : t.Keeps (t.close reason) :=
  ⟨⟨rfl, .inr rfl⟩, rfl, rfl⟩

theorem keeps_sendLogout (t : Turn) (now : Timestamp) (text : Option String) :
    t.Keeps (t.sendLogout now text) := by
  have hmark : t.Keeps { t with handler.logoutSent := true } := ⟨⟨rfl, .inl rfl⟩, rfl, rfl⟩
  exact hmark.trans (keeps_send _ now _)

theorem keeps_refuse (t : Turn) (now : Timestamp) (reason : DisconnectReason) :
    t.Keeps (t.refuse now reason) :=
  (keeps_sendLogout t now _).trans (keeps_close _ reason)

@[simp]
theorem shared_refuse (t : Turn) (now : Timestamp) (reason : DisconnectReason) :
    (t.refuse now reason).shared = t.shared :=
  shared_send _ now _

theorem keeps_replies (t : Turn) (now : Timestamp) (replies : List Message) :
    t.Keeps (replies.foldl (fun t reply => t.send now reply) t) := by
  induction replies generalizing t with
  | nil => exact .refl t
  | cons reply rest ih => exact (keeps_send t now reply).trans (ih _)

theorem keeps_dispatch (t : Turn) (services : Services) (id : SessionId) (msgType : MsgType)
    (m : Message) : t.Keeps (t.dispatch services id msgType m) := by
  have htold := keeps_tell t (.received id m)
  unfold dispatch
  split
  · exact htold.trans (keeps_replies _ services.now _)
  · exact htold.trans (keeps_send _ services.now _)

/-- Nothing but a sequence reset moves the expectation once the number of a
message has been checked. -/
theorem keeps_process {msgType : MsgType} (h : msgType ≠ .sequenceReset) (t : Turn)
    (services : Services) (id : SessionId) (m : Message) :
    t.Keeps (t.process services id msgType m) := by
  cases msgType with
  | heartbeat => exact .refl t
  | testRequest => exact keeps_send t services.now _
  | logout =>
    have hanswered :
        t.Keeps (if t.handler.logoutSent then t else t.sendLogout services.now none) := by
      split
      · exact .refl t
      · exact keeps_sendLogout t services.now none
    exact hanswered.trans (keeps_close _ .logout)
  | sequenceReset => contradiction
  | _ => exact keeps_dispatch t services id _ m

/-! ### Sequence resets -/

/-- A turn goes on by moving the expectation forward, if at all. -/
structure Advances (t t' : Turn) : Prop extends t.Stays t' where
  expects : t.handler.expects ≤ t'.handler.expects
  resendUntil : t'.handler.resendUntil = t.handler.resendUntil
  shared : t'.shared = t.shared

theorem advances_resetSequence (t : Turn) (m : Message) : t.Advances (t.resetSequence m) := by
  have hrefl : t.Advances t := ⟨.refl t, UInt32.le_refl _, rfl, rfl⟩
  unfold resetSequence
  split
  · split
    · refine ⟨⟨rfl, .inl rfl⟩, ?_, rfl, rfl⟩
      cases hsession : t.handler.session with
      | none => simp [Handler.expects, hsession]
      | some s =>
        rw [Handler.expects_of_session hsession]
        exact s.le_nextIncoming_advance _
    · exact hrefl
  · exact hrefl

theorem session_resetSequence (hsession : t.handler.session = some s) (m : Message) :
    (t.resetSequence m).handler.session = some (s.reset m) := by
  simp only [resetSequence, Session.reset, Message.newSeqNo?]
  cases m.integer? Tag.newSeqNo with
  | none => exact hsession
  | some n =>
    simp only [Option.bind_some]
    split
    · simp only [hsession, Option.map_some]
    · exact hsession

theorem stays_process (t : Turn) (services : Services) (id : SessionId) (msgType : MsgType)
    (m : Message) : t.Stays (t.process services id msgType m) := by
  by_cases hreset : msgType = .sequenceReset
  · subst hreset
    exact (advances_resetSequence t m).toStays
  · exact (keeps_process hreset t services id m).toStays

/-- Processing a message never moves the expectation back. -/
theorem expects_le_process (t : Turn) (services : Services) (id : SessionId) (msgType : MsgType)
    (m : Message) :
    t.handler.expects ≤ (t.process services id msgType m).handler.expects := by
  by_cases hreset : msgType = .sequenceReset
  · subst hreset
    exact (advances_resetSequence t m).expects
  · rw [(keeps_process hreset t services id m).expects]
    exact UInt32.le_refl _

/-! ### The check of a number -/

theorem expects_counted (t : Turn) (s : Session) :
    (t.counted s).handler.expects = s.counters.nextIncoming + 1 := rfl

/-- What is still asked for lies beyond the number that was counted. -/
theorem lt_of_resendUntil_counted {last : UInt32}
    (h : (t.counted s).handler.resendUntil = some last) :
    t.handler.resendUntil = some last ∧ s.counters.nextIncoming < last := by
  have hresend : (if t.handler.resendUntil.any (· ≤ s.counters.nextIncoming) then none
      else t.handler.resendUntil) = some last := h
  split at hresend
  · contradiction
  · next hincomplete =>
    rw [hresend, Option.any_some, decide_eq_true_eq, UInt32.not_le] at hincomplete
    exact ⟨hresend, hincomplete⟩

/-- The turn after the numbers before one that is ahead have been asked for. -/
def requested (t : Turn) (now : Timestamp) (expected received : UInt32) : Turn :=
  { t with handler.resendUntil := some received }.send now
    (Admin.resendRequest expected received)

/-- What the check of a number comes to. -/
inductive Checked (t : Turn) (now : Timestamp) (s : Session) (m : Message) : Turn × Bool → Prop
  | unnumbered {passes : Bool} (hnumber : m.header.msgSeqNum = none)
      (hpasses : passes = !t.handler.strict) : Checked t now s m (t, passes)
  | repeated {n : UInt32} (hnumber : m.header.msgSeqNum = some n) (hdup : m.possDup = true)
      (hlow : n < s.counters.nextIncoming) : Checked t now s m (t, true)
  | counted (hnumber : m.header.msgSeqNum = some s.counters.nextIncoming) :
      Checked t now s m (t.counted s, true)
  | tooLow {n : UInt32} (hnumber : m.header.msgSeqNum = some n) (hdup : m.possDup = false)
      (hlow : n < s.counters.nextIncoming) (hstrict : t.handler.strict = true) :
      Checked t now s m (t.refuse now (.sequenceTooLow s.counters.nextIncoming n), false)
  | requested {n : UInt32} (hnumber : m.header.msgSeqNum = some n)
      (hhigh : s.counters.nextIncoming < n) (hstrict : t.handler.strict = true)
      (hnone : t.handler.resendUntil = none) :
      Checked t now s m (t.requested now s.counters.nextIncoming n, false)
  | dropped {n last : UInt32} (hnumber : m.header.msgSeqNum = some n)
      (hhigh : s.counters.nextIncoming < n) (hstrict : t.handler.strict = true)
      (hlast : t.handler.resendUntil = some last) : Checked t now s m (t, false)
  | tolerated {n : UInt32} (hnumber : m.header.msgSeqNum = some n)
      (hne : n ≠ s.counters.nextIncoming) (hlenient : t.handler.strict = false) :
      Checked t now s m (t, true)

theorem checked_checkSequence (t : Turn) (now : Timestamp) (s : Session) (m : Message) :
    t.Checked now s m (t.checkSequence now s m) := by
  cases hnumber : m.header.msgSeqNum with
  | none =>
    simp only [checkSequence, hnumber]
    exact .unnumbered hnumber rfl
  | some n =>
    simp only [checkSequence, hnumber]
    split
    · next hdup =>
      rw [Bool.and_eq_true, decide_eq_true_eq] at hdup
      exact .repeated hnumber hdup.1 hdup.2
    · next hdup =>
      rcases s.receive_cases n with ⟨rfl, hreceive⟩ | ⟨hlow, hreceive⟩ | ⟨hhigh, hreceive⟩
      · simp only [hreceive]
        exact .counted hnumber
      · have hnew : m.possDup = false := by simpa [hlow] using hdup
        have hne : n ≠ s.counters.nextIncoming := UInt32.ne_of_lt hlow
        simp only [hreceive, checkArrival]
        split
        · next hstrict => exact .tooLow hnumber hnew hlow hstrict
        · next hlenient => exact .tolerated hnumber hne (Bool.not_eq_true _ ▸ hlenient)
      · have hne : n ≠ s.counters.nextIncoming := (UInt32.ne_of_lt hhigh).symm
        simp only [hreceive, checkArrival]
        split
        · next hstrict =>
          split
          · next hnone => exact .requested hnumber hhigh hstrict (Option.isNone_iff_eq_none.1 hnone)
          · next hsome =>
            obtain ⟨last, hlast⟩ :=
              Option.ne_none_iff_exists'.1 (mt Option.isNone_iff_eq_none.2 hsome)
            exact .dropped hnumber hhigh hstrict hlast
        · next hlenient => exact .tolerated hnumber hne (Bool.not_eq_true _ ▸ hlenient)

theorem Checked.of_eq {now : Timestamp} {result : Turn × Bool}
    (h : t.checkSequence now s m = result) : t.Checked now s m result :=
  h ▸ checked_checkSequence t now s m

/-- A strict handler lets nothing pass but repetitions and the expected number. -/
theorem Checked.of_strict {now : Timestamp} (h : t.Checked now s m (t', true))
    (hstrict : t.handler.strict = true) :
    (t' = t ∧ m.possDup = true ∧ ∃ n, m.header.msgSeqNum = some n ∧ n < s.counters.nextIncoming) ∨
      (t' = t.counted s ∧ m.header.msgSeqNum = some s.counters.nextIncoming) := by
  cases h with
  | unnumbered _ hpasses =>
    rw [hstrict] at hpasses
    contradiction
  | repeated hnumber hdup hlow => exact .inl ⟨rfl, hdup, _, hnumber, hlow⟩
  | counted hnumber => exact .inr ⟨rfl, hnumber⟩
  | tolerated _ _ hlenient =>
    rw [hstrict] at hlenient
    contradiction

theorem Checked.stays {now : Timestamp} {result : Turn × Bool}
    (h : t.Checked now s m result) : t.Stays result.1 := by
  cases h with
  | tooLow => exact (keeps_refuse t now _).toStays
  | @requested n =>
    have hmark : t.Stays { t with handler.resendUntil := some n } := ⟨rfl, .inl rfl⟩
    exact hmark.trans (keeps_send _ now _).toStays
  | counted => exact ⟨rfl, .inl rfl⟩
  | _ => exact .refl t

theorem Checked.shared {now : Timestamp} {result : Turn × Bool}
    (h : t.Checked now s m result) : result.1.shared = t.shared := by
  cases h with
  | tooLow => exact shared_refuse t now _
  | requested => exact shared_send _ now _
  | _ => rfl

/-! ### The treatment of a message -/

/-- The number of a message is to be checked: the message has a type, and is
neither a logon nor a reset that holds whatever its number. -/
structure IsChecked (t : Turn) (s : Session) (msgType : MsgType) (m : Message) : Prop where
  session : t.handler.session = some s
  type : m.msgType? = some msgType
  ne_logon : msgType ≠ .logon
  not_reset : isPlainReset msgType m = false

/-- What becomes of a message of an established session. -/
inductive Treated (t : Turn) (services : Services) (m : Message) : Turn → Prop
  | ignored (h : t.handler.session = none ∨ m.msgType? = none) : Treated t services m t
  | logon (htype : m.msgType? = some .logon) :
      Treated t services m (t.refuse services.now .duplicateLogon)
  | reset (htype : m.msgType? = some .sequenceReset) : Treated t services m (t.resetSequence m)
  | stopped {s : Session} {msgType : MsgType} {t' : Turn} (h : t.IsChecked s msgType m)
      (hcheck : t.checkSequence services.now s m = (t', false)) : Treated t services m t'
  | processed {s : Session} {msgType : MsgType} {t' : Turn} (h : t.IsChecked s msgType m)
      (hcheck : t.checkSequence services.now s m = (t', true)) :
      Treated t services m (t'.process services s.id msgType m)

theorem Treated.stays {services : Services} (h : t.Treated services m t') : t.Stays t' := by
  cases h with
  | ignored => exact .refl t
  | logon => exact (keeps_refuse t services.now .duplicateLogon).toStays
  | reset => exact (advances_resetSequence t m).toStays
  | stopped _ hcheck => exact (Checked.of_eq hcheck).stays
  | processed _ hcheck => exact (Checked.of_eq hcheck).stays.trans (stays_process _ services _ _ m)

/-- A message that passes the check of its number is processed. -/
theorem traffic_of_isChecked {services : Services} {msgType : MsgType} (h : t.IsChecked s msgType m)
    (hcheck : t.checkSequence services.now s m = (t', true)) :
    t.traffic services m = t'.process services s.id msgType m := by
  simp only [traffic, h.session, h.type, if_neg h.ne_logon, h.not_reset, hcheck,
    Bool.false_eq_true, if_false]

/-- A message that fails the check of its number goes no further. -/
theorem traffic_of_stopped {services : Services} {msgType : MsgType} (h : t.IsChecked s msgType m)
    (hcheck : t.checkSequence services.now s m = (t', false)) : t.traffic services m = t' := by
  simp only [traffic, h.session, h.type, if_neg h.ne_logon, h.not_reset, hcheck,
    Bool.false_eq_true, if_false]

theorem treated_traffic (t : Turn) (services : Services) (m : Message) :
    t.Treated services m (t.traffic services m) := by
  unfold traffic
  split
  · next s msgType hsession htype =>
    split
    · next hlogon =>
      subst hlogon
      exact .logon htype
    · next hlogon =>
      split
      · next hreset =>
        have hkind : msgType = .sequenceReset := by
          rw [isPlainReset, Bool.and_eq_true, decide_eq_true_eq] at hreset
          exact hreset.1
        subst hkind
        exact .reset htype
      · next hreset =>
        have h : t.IsChecked s msgType m :=
          ⟨hsession, htype, hlogon, Bool.not_eq_true _ ▸ hreset⟩
        split
        · next t' hcheck => exact .processed h hcheck
        · next t' hcheck => exact .stopped h hcheck
  · next hnone =>
    refine .ignored ?_
    cases hsession : t.handler.session with
    | none => exact .inl rfl
    | some s =>
      cases htype : m.msgType? with
      | none => exact .inr rfl
      | some msgType => exact absurd htype (hnone s msgType hsession)

end Turn

end FixEngine
