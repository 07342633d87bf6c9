import FixEngine.Proofs.Engine.Traffic

/-!
# Runs of a handler

In the traffic of its session a handler is told of the messages that arrive and
of the messages that its application sends.  `Handler.Takes` says what one of
these inputs does to the numbers of a strict handler, so that a fact about a
whole run follows by induction over its inputs.
-/

namespace FixEngine

/-- What a handler is told in the traffic of its session. -/
inductive Input where
  /-- A message has arrived. -/
  | message (services : Services) (shared : Shared) (m : Message)
  /-- The application sends a message. -/
  | stamp (now : Timestamp) (m : Message)

namespace Input

/-- The number of a message that has arrived. -/
def number? : Input → Option UInt32
  | message _ _ m => m.header.msgSeqNum
  | stamp _ _ => none

/-- A sequence reset has arrived, which may fill a gap. -/
def IsSequenceReset : Input → Prop
  | message _ _ m => m.msgType? = some .sequenceReset
  | stamp _ _ => False

end Input

namespace Handler

/-- The actions with which the handler answers an input. -/
def answers (h : Handler) : Input → List Action
  | .message services shared m => (h.receive services shared m).actions
  | .stamp _ _ => []

/-- The handler after an input. -/
def next (h : Handler) : Input → Handler
  | .message services shared m => (h.receive services shared m).handler
  | .stamp now m => (h.stamp now m).handler

/-- The handler when the first inputs of a run have been taken up. -/
def before (h : Handler) (inputs : List Input) (i : Nat) : Handler :=
  (inputs.take i).foldl next h

/-- The handler checks the number of a message, with a result. -/
def Checks (h : Handler) (services : Services) (shared : Shared) (m : Message) (passes : Bool) :
    Prop :=
  h.phase = .established ∧ ∃ s msgType, (Turn.start h shared).IsChecked s msgType m ∧
    ((Turn.start h shared).checkSequence services.now s m).2 = passes

/-- A possible duplicate arrives under a number below the expected one. -/
def Repeats (h : Handler) (m : Message) : Prop :=
  m.possDup = true ∧ m.header.msgSeqNum.any (· < h.expects) = true

/-- A message arrives that passes the check of its number and repeats none. -/
def Counts (h : Handler) : Input → Prop
  | .message services shared m => h.Checks services shared m true ∧ ¬h.Repeats m
  | .stamp _ _ => False

/-- A message arrives that fails the check of its number. -/
def Drops (h : Handler) : Input → Prop
  | .message services shared m => h.Checks services shared m false
  | .stamp _ _ => False

/-- The handler answers with a request for the messages up to a number. -/
def Requests (h : Handler) (input : Input) (last : UInt32) : Prop :=
  ∃ request, .send request ∈ h.answers input ∧ request.msgType? = some .resendRequest ∧
    request.integer? Tag.endSeqNo = some (Int64.ofInt last.toNat)

/-- The input at a position of a run moves the expectation past a number. -/
def PassesAt (h : Handler) (inputs : List Input) (i : Nat) (n : UInt32) : Prop :=
  (h.before inputs i).expects ≤ n ∧ n < (h.before inputs (i + 1)).expects

/-- A sequence reset at a position of a run moves the expectation past a number. -/
def ResetsAt (h : Handler) (inputs : List Input) (i : Nat) (n : UInt32) : Prop :=
  h.PassesAt inputs i n ∧ ∃ input, inputs[i]? = some input ∧ input.IsSequenceReset

/-- A strict handler whose session was established. -/
structure InTraffic (h : Handler) : Prop where
  strict : h.strict = true
  phase : h.phase = .established ∨ h.phase = .closed

/-- What an input does to the numbers of a strict handler. -/
inductive Takes (h : Handler) (input : Input) (h' : Handler) : Prop
  | kept (hexpects : h'.expects = h.expects) (hresend : h'.resendUntil = h.resendUntil)
  | requested {last : UInt32} (hrequests : h.Requests input last) (hahead : h.expects < last)
      (hexpects : h'.expects = h.expects) (hresend : h'.resendUntil = some last)
  | counted (hcounts : h.Counts input) (hnumber : input.number? = some h.expects)
      (hexpects : h'.expects = h.expects + 1)
      (hresend : ∀ last, h'.resendUntil = some last → h.resendUntil = some last ∧ h.expects < last)
  | reset (hreset : input.IsSequenceReset)
      (hexpects : h.expects < 0xFFFFFFFF → h.expects ≤ h'.expects)
      (hresend : ∀ last, h'.resendUntil = some last → h.resendUntil = some last)

variable {h : Handler} {input : Input} {inputs : List Input} {services : Services}
  {shared : Shared} {m : Message} {s : Session} {t t' : Turn} {i : Nat}

/-! ### One input -/

theorem Takes.of_keeps (hkeeps : t.Keeps t') : t.handler.Takes input t'.handler :=
  .kept hkeeps.expects hkeeps.resendUntil

theorem Takes.of_advances (htype : m.msgType? = some .sequenceReset) (hadvances : t.Advances t') :
    t.handler.Takes (.message services shared m) t'.handler :=
  .reset htype (fun _ => hadvances.expects) fun _ hlast => hadvances.resendUntil ▸ hlast

theorem receive_established (hphase : h.phase = .established) :
    h.receive services shared m = (Turn.start h shared).traffic services m := by
  simp only [receive, hphase]

theorem receive_closed (hphase : h.phase = .closed) :
    h.receive services shared m = Turn.start h shared := by
  simp only [receive, hphase]

/-- Sending a message changes neither what is expected nor what was asked for. -/
theorem keeps_stamp (h : Handler) (now : Timestamp) (m : Message) (shared : Shared) :
    (Turn.start h shared).Keeps (Turn.start (h.next (.stamp now m)) shared) := by
  rw [next]
  rcases h.stamping_cases now m with hrefused | ⟨-, s, hsession, hstamped⟩
  · rw [hrefused]
    exact .refl _
  · rw [hstamped]
    refine ⟨⟨rfl, .inl rfl⟩, ?_, rfl⟩
    rw [Turn.start, Turn.start, expects_of_session hsession]
    rfl

/-- Below the greatest number, the numbers under the next one are those up to the
expected one. -/
theorem lt_expects_succ {n : UInt32} (hbelow : h.expects < 0xFFFFFFFF) :
    n < h.expects + 1 ↔ n ≤ h.expects := by
  rw [UInt32.lt_iff_toNat_lt, UInt32.le_iff_toNat_le, toNat_succ_of_lt hbelow]
  exact Nat.lt_succ_iff

theorem expects_succ_le {n : UInt32} (hlt : h.expects < n) : h.expects + 1 ≤ n := by
  rw [UInt32.le_iff_toNat_le, toNat_succ_of_lt hlt]
  exact UInt32.lt_iff_toNat_lt.1 hlt

theorem expects_of_isChecked {msgType : MsgType}
    (hchecked : (Turn.start h shared).IsChecked s msgType m) :
    h.expects = s.counters.nextIncoming :=
  expects_of_session hchecked.session

/-- A message under the expected number passes the check and repeats none. -/
theorem counts_of_expected {msgType : MsgType} (hphase : h.phase = .established)
    (hchecked : (Turn.start h shared).IsChecked s msgType m)
    (hnumber : m.header.msgSeqNum = some s.counters.nextIncoming) :
    h.Counts (.message services shared m) := by
  have hcheck := Turn.checkSequence_of_expected (Turn.start h shared) services.now hnumber
  refine ⟨⟨hphase, s, msgType, hchecked, congrArg Prod.snd hcheck⟩, ?_⟩
  rintro ⟨-, hlow⟩
  rw [hnumber, expects_of_isChecked hchecked, Option.any_some, decide_eq_true_eq] at hlow
  exact UInt32.lt_irrefl _ hlow

/-- The expected number is counted, and a sequence reset may move the
expectation further. -/
theorem takes_of_counted {msgType : MsgType} (hcounts : h.Counts (.message services shared m))
    (hchecked : (Turn.start h shared).IsChecked s msgType m)
    (hnumber : m.header.msgSeqNum = some s.counters.nextIncoming) :
    h.Takes (.message services shared m)
      (((Turn.start h shared).counted s).process services s.id msgType m).handler := by
  have hexpects := expects_of_isChecked hchecked
  have hcounted := Turn.expects_counted (Turn.start h shared) s
  by_cases hreset : msgType = .sequenceReset
  · subst hreset
    have hadvances := Turn.advances_resetSequence ((Turn.start h shared).counted s) m
    refine .reset hchecked.type ?_ ?_
    · intro hbelow
      have hstep : h.expects < h.expects + 1 := (lt_expects_succ hbelow).2 (UInt32.le_refl _)
      refine UInt32.le_trans (UInt32.le_of_lt hstep) ?_
      rw [hexpects, ← hcounted]
      exact hadvances.expects
    · intro last hlast
      have hasked : ((Turn.start h shared).counted s).handler.resendUntil = some last :=
        hadvances.resendUntil ▸ hlast
      exact (Turn.lt_of_resendUntil_counted hasked).1
  · have hkeeps := Turn.keeps_process hreset ((Turn.start h shared).counted s) services s.id m
    refine .counted hcounts ?_ ?_ ?_
    · rw [hexpects]
      exact hnumber
    · rw [hkeeps.expects, hcounted, hexpects]
    · intro last hlast
      rw [hkeeps.resendUntil] at hlast
      rw [hexpects]
      exact Turn.lt_of_resendUntil_counted hlast

/-- A possible duplicate is processed without being counted. -/
theorem takes_of_repeated {msgType : MsgType} (hchecked : t.IsChecked s msgType m) :
    t.handler.Takes (.message services shared m)
      (t.process services s.id msgType m).handler := by
  by_cases hreset : msgType = .sequenceReset
  · subst hreset
    exact .of_advances hchecked.type (Turn.advances_resetSequence t m)
  · exact .of_keeps (Turn.keeps_process hreset t services s.id m)

theorem requests_of_requested {msgType : MsgType} {first last : UInt32}
    (hchecked : (Turn.start h shared).IsChecked s msgType m)
    (hreceive : h.receive services shared m =
      (Turn.start h shared).requested services.now first last) :
    h.Requests (.message services shared m) last := by
  let asking : Turn := Turn.start { h with resendUntil := some last } shared
  have hsession : asking.handler.session = some s := hchecked.session
  have hsends := Turn.sends_send hsession services.now (Admin.resendRequest first last)
  refine ⟨(s.stamp services.now (Admin.resendRequest first last)).2, ?_, rfl, rfl⟩
  have hactions : (h.receive services shared m).actions =
      [.send (s.stamp services.now (Admin.resendRequest first last)).2] := by
    rw [hreceive]
    exact hsends.actions
  rw [answers, hactions]
  exact List.mem_singleton_self _

/-- The numbers before one that is ahead are asked for. -/
theorem takes_of_requested {msgType : MsgType} {last : UInt32}
    (hchecked : (Turn.start h shared).IsChecked s msgType m)
    (hhigh : s.counters.nextIncoming < last)
    (hreceive : h.receive services shared m =
      (Turn.start h shared).requested services.now s.counters.nextIncoming last) :
    h.Takes (.message services shared m)
      ((Turn.start h shared).requested services.now s.counters.nextIncoming last).handler := by
  let asking : Turn := Turn.start { h with resendUntil := some last } shared
  have hkeeps := Turn.keeps_send asking services.now
    (Admin.resendRequest s.counters.nextIncoming last)
  refine .requested (requests_of_requested hchecked hreceive) ?_ hkeeps.expects
    hkeeps.resendUntil
  rw [expects_of_isChecked hchecked]
  exact hhigh

theorem takes_of_treated (hphase : h.phase = .established) (hstrict : h.strict = true)
    (hreceive : h.receive services shared m = t')
    (ht : (Turn.start h shared).Treated services m t') :
    h.Takes (.message services shared m) t'.handler := by
  cases ht with
  | ignored => exact .kept rfl rfl
  | logon => exact .of_keeps (Turn.keeps_refuse (Turn.start h shared) services.now .duplicateLogon)
  | reset htype =>
    exact .of_advances htype (Turn.advances_resetSequence (Turn.start h shared) m)
  | @stopped s msgType _ hchecked hcheck =>
    cases Turn.Checked.of_eq hcheck with
    | unnumbered | dropped => exact .kept rfl rfl
    | tooLow => exact .of_keeps (Turn.keeps_refuse (Turn.start h shared) services.now _)
    | requested _ hhigh => exact takes_of_requested hchecked hhigh hreceive
  | @processed s msgType _ hchecked hcheck =>
    rcases (Turn.Checked.of_eq hcheck).of_strict hstrict with ⟨rfl, -⟩ | ⟨rfl, hnumber⟩
    · exact takes_of_repeated hchecked
    · exact takes_of_counted (counts_of_expected hphase hchecked hnumber) hchecked hnumber

/-- An input is taken up in one of a few ways. -/
theorem takes_next (ht : h.InTraffic) (input : Input) : h.Takes input (h.next input) := by
  cases input with
  | message services shared m =>
    rcases ht.phase with hphase | hphase
    · have htreated := (Turn.start h shared).treated_traffic services m
      rw [← receive_established hphase] at htreated
      exact takes_of_treated hphase ht.strict rfl htreated
    · rw [next, receive_closed hphase]
      exact .kept rfl rfl
  | stamp now m => exact .of_keeps (keeps_stamp h now m .empty)

theorem InTraffic.of_stays (ht : t.handler.InTraffic) (hstays : t.Stays t') :
    t'.handler.InTraffic where
  strict := hstays.strict.trans ht.strict
  phase := by
    rcases hstays.phase with hphase | hclosed
    · rw [hphase]
      exact ht.phase
    · exact .inr hclosed

theorem inTraffic_next (ht : h.InTraffic) (input : Input) : (h.next input).InTraffic := by
  cases input with
  | message services shared m =>
    rcases ht.phase with hphase | hphase
    · have htreated := (Turn.start h shared).treated_traffic services m
      rw [← receive_established hphase] at htreated
      exact ht.of_stays (t := Turn.start h shared) htreated.stays
    · rw [next, receive_closed hphase]
      exact ht
  | stamp now m =>
    exact ht.of_stays (t := Turn.start h .empty) (keeps_stamp h now m .empty).toStays

/-! ### Runs -/

theorem before_succ (hinput : inputs[i]? = some input) :
    h.before inputs (i + 1) = (h.before inputs i).next input := by
  rw [before, before, List.take_add_one, hinput, Option.toList_some, List.foldl_append,
    List.foldl_cons, List.foldl_nil]

theorem before_succ_of_none (hinput : inputs[i]? = none) :
    h.before inputs (i + 1) = h.before inputs i := by
  rw [before, before, List.take_add_one, hinput, Option.toList_none, List.append_nil]

theorem inTraffic_before (ht : h.InTraffic) (inputs : List Input) (i : Nat) :
    (h.before inputs i).InTraffic := by
  induction i with
  | zero => exact ht
  | succ i ih =>
    cases hinput : inputs[i]? with
    | none =>
      rw [before_succ_of_none hinput]
      exact ih
    | some input =>
      rw [before_succ hinput]
      exact inTraffic_next ih input

/-! ### A strict acceptor -/

/-- A message of the other side under a number. -/
def sampleInput (n : UInt32) (m : Message) : Input :=
  let id : SessionId := { senderCompId := "CLIENT", targetCompId := "SERVER" }
  .message ⟨.silent, .acceptAll, .epoch, .fresh⟩ .empty
    ((Session.start id "FIX.4.4" n 1).stamp .epoch m).2

/-- A sequence reset that fills a gap up to a number. -/
def sampleGapFill (next : UInt32) : Message :=
  Message.ofType .sequenceReset
    [.field ⟨Tag.gapFillFlag, .flag true⟩, Admin.numberEntry Tag.newSeqNo next]

/-- A strict acceptor that has taken up a logon. -/
def sampleAcceptor : Handler :=
  (acceptor true 1 none).next (sampleInput 1 (Admin.logon 30 false))

end Handler

end FixEngine
