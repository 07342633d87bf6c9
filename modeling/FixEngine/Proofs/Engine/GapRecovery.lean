import FixEngine.Proofs.Engine.Forwarding
import FixEngine.Proofs.Engine.Recovery

/-!
# Closing a gap

A strict handler that receives a number ahead of the expected one asks once for the
numbers in between.  While they arrive in order it counts each of them and hands its
message to the application, and what is further ahead it drops without a word.  With
the last of them it stops waiting, so that it asks again when the next gap opens.
-/

namespace FixEngine

/-- The message asks for the messages from one number to another. -/
structure Message.AsksFor (request : Message) (first last : UInt32) : Prop where
  msgType : request.msgType? = some .resendRequest
  beginSeqNo : request.integer? Tag.beginSeqNo = some (Int64.ofInt first.toNat)
  endSeqNo : request.integer? Tag.endSeqNo = some (Int64.ofInt last.toNat)

namespace Action

def isResendRequest : Action → Bool
  | send m => m.msgType? = some .resendRequest
  | disconnect _ => false

/-- The action sends a message of the application. -/
def IsReply (action : Action) : Prop := ∃ m, action = .send m ∧ m.IsApplication

theorem IsReply.isResendRequest {action : Action} (h : action.IsReply) :
    action.isResendRequest = false := by
  obtain ⟨m, rfl, t, htype, hadministrative⟩ := h
  rw [Action.isResendRequest, htype, decide_eq_false_iff_not, Option.some.injEq]
  rintro rfl
  contradiction

theorem IsReply.isDisconnect {action : Action} (h : action.IsReply) :
    action.isDisconnect = false := by
  obtain ⟨m, rfl, -⟩ := h
  rfl

end Action

namespace Input

/-- A message arrives under a number that is checked: it is neither a logon nor a reset
that holds whatever its number. -/
inductive Carries (n : UInt32) : Input → Prop
  | message {services : Services} {shared : Shared} {m : Message} {msgType : MsgType}
      (htype : m.msgType? = some msgType) (hlogon : msgType ≠ .logon)
      (hreset : Turn.isPlainReset msgType m = false) (hnumber : m.header.msgSeqNum = some n) :
      Carries n (.message services shared m)

/-- A message of the application arrives under a number, as a repetition or not.  The
application replies with messages of its own only. -/
inductive Brings (m : Message) (n : UInt32) : Input → Prop
  | message {services : Services} {shared : Shared} (hm : m.IsApplication)
      (hnumber : m.header.msgSeqNum = some n)
      (hreplies : services.application.RepliesWithin) : Brings m n (.message services shared m)

theorem Brings.carries {input : Input} {m : Message} {n : UInt32} (h : input.Brings m n) :
    input.Carries n := by
  obtain ⟨⟨msgType, htype, hadministrative⟩, hnumber, -⟩ := h
  have hlogon : msgType ≠ .logon := by
    rintro rfl
    contradiction
  have hreset : msgType ≠ .sequenceReset := by
    rintro rfl
    contradiction
  exact .message htype hlogon (by simp [Turn.isPlainReset, hreset]) hnumber

/-- Messages of the application arrive under the numbers from one to another, in order.
In between others may arrive that are further ahead. -/
inductive Fills (last : UInt32) : UInt32 → List Input → Prop
  | last {input : Input} {m : Message} (hinput : input.Brings m last) : Fills last last [input]
  | next {n : UInt32} {input : Input} {m : Message} {rest : List Input} (hn : n < last)
      (hinput : input.Brings m n) (hrest : Fills last (n + 1) rest) : Fills last n (input :: rest)
  | ahead {n k : UInt32} {input : Input} {m : Message} {rest : List Input} (hk : last < k)
      (hinput : input.Brings m k) (hrest : Fills last n rest) : Fills last n (input :: rest)

/-- The messages under numbers up to one that arrive. -/
def messagesUpTo (last : UInt32) (inputs : List Input) : List Message :=
  (inputs.filterMap message?).filter fun m => m.header.msgSeqNum.any (· ≤ last)

theorem messagesUpTo_cons {last n : UInt32} {input : Input} {m : Message}
    (hinput : input.Brings m n) (rest : List Input) :
    messagesUpTo last (input :: rest) =
      if n ≤ last then m :: messagesUpTo last rest else messagesUpTo last rest := by
  obtain ⟨-, hnumber, -⟩ := hinput
  have hmessage (services : Services) (shared : Shared) :
      message? (.message services shared m) = some m := rfl
  rw [messagesUpTo, List.filterMap_cons_some (hmessage _ _), List.filter_cons, hnumber,
    Option.any_some]
  simp only [decide_eq_true_eq]
  rfl

/-- Up to the last number all numbers arrive, in order and once. -/
theorem Fills.numbers {last n : UInt32} {inputs : List Input} (h : Fills last n inputs) :
    n ≤ last ∧ (messagesUpTo last inputs).map (fun m => m.header.msgSeqNum.map UInt32.toNat) =
      (List.range' n.toNat (last.toNat + 1 - n.toNat)).map some := by
  induction h with
  | @last input m hinput =>
    have hone : last.toNat + 1 - last.toNat = 1 := by omega
    refine ⟨UInt32.le_refl last, ?_⟩
    rw [messagesUpTo_cons hinput, if_pos (UInt32.le_refl last), hone]
    obtain ⟨-, hnumber, -⟩ := hinput
    exact congrArg (fun number => [number.map UInt32.toNat]) hnumber
  | @next n input m rest hn hinput hrest ih =>
    have hle := UInt32.le_of_lt hn
    have hlt := UInt32.lt_iff_toNat_lt.1 hn
    have hlength : last.toNat + 1 - n.toNat = (last.toNat + 1 - (n.toNat + 1)) + 1 := by omega
    refine ⟨hle, ?_⟩
    rw [messagesUpTo_cons hinput, if_pos hle, List.map_cons, ih.2, toNat_succ_of_lt hn, hlength,
      List.range'_succ, List.map_cons]
    obtain ⟨-, hnumber, -⟩ := hinput
    rw [hnumber]
    rfl
  | @ahead n k input m rest hk hinput hrest ih =>
    refine ⟨ih.1, ?_⟩
    rw [messagesUpTo_cons hinput, if_neg (UInt32.not_le.2 hk)]
    exact ih.2

end Input

namespace Turn

variable {t : Turn} {s : Session} {m : Message} {n : UInt32} {now : Timestamp}

/-- A number ahead of the expected one stops a message.  A strict handler that waits for
nothing asks for what is missing. -/
theorem checkSequence_of_ahead (hstrict : t.handler.strict = true)
    (hnumber : m.header.msgSeqNum = some n) (hahead : s.counters.nextIncoming < n) :
    t.checkSequence now s m =
      (if t.handler.resendUntil = none then t.requested now s.counters.nextIncoming n else t,
        false) := by
  generalize hresult : t.checkSequence now s m = result
  cases Checked.of_eq hresult with
  | requested hnumber' _ _ hnone =>
    cases hnumber.symm.trans hnumber'
    rw [if_pos hnone]
  | dropped _ _ _ hlast =>
    have hsome : t.handler.resendUntil ≠ none := by
      rw [hlast]
      exact Option.some_ne_none _
    rw [if_neg hsome]
  | unnumbered hnumber' => cases hnumber.symm.trans hnumber'
  | counted hnumber' =>
    cases hnumber.symm.trans hnumber'
    exact absurd hahead (UInt32.lt_irrefl _)
  | repeated hnumber' _ hlow | tooLow hnumber' _ hlow =>
    cases hnumber.symm.trans hnumber'
    exact absurd hahead (UInt32.lt_asymm hlow)
  | tolerated _ _ hlenient => cases hstrict.symm.trans hlenient

end Turn

namespace Handler

variable {h : Handler} {id : SessionId} {expected last n : UInt32} {asked : Option UInt32}
  {input : Input} {inputs left right : List Input} {m : Message} {s : Session}

/-- A strict handler in the traffic of a session expects a number, and waits for the
numbers up to another one if it has asked for them. -/
structure Awaits (h : Handler) (id : SessionId) (expected : UInt32) (asked : Option UInt32) :
    Prop where
  strict : h.strict = true
  phase : h.phase = .established
  sessionId : h.sessionId? = some id
  expects : h.expects = expected
  resendUntil : h.resendUntil = asked

theorem Awaits.exists_session (h' : h.Awaits id expected asked) :
    ∃ s, h.session = some s ∧ s.id = id ∧ s.counters.nextIncoming = expected := by
  obtain ⟨s, hsession, hid⟩ := Option.map_eq_some_iff.1 h'.sessionId
  exact ⟨s, hsession, hid, (expects_of_session hsession).symm.trans h'.expects⟩

/-- Sending messages does not change what a handler waits for. -/
theorem Awaits.of_sends {t t' : Turn} {s' : Session} {messages : List Message}
    (h' : t.handler.Awaits id expected asked) (hsends : t.Sends t' s s' messages) :
    t'.handler.Awaits id expected asked := by
  obtain ⟨s'', hsession, hid, hexpects⟩ := h'.exists_session
  cases hsends.session.symm.trans hsession
  rw [hsends.handler]
  exact ⟨h'.strict, h'.phase, congrArg some (hsends.id.trans hid),
    hsends.nextIncoming.trans hexpects, h'.resendUntil⟩

/-! ### One message -/

/-- A message under a number ahead of the expected one has no effect but the request for
what is missing, if nothing is waited for. -/
theorem Awaits.receive_of_ahead {services : Services} {shared : Shared} {msgType : MsgType}
    (h' : h.Awaits id expected asked) (htype : m.msgType? = some msgType)
    (hlogon : msgType ≠ .logon) (hreset : Turn.isPlainReset msgType m = false)
    (hnumber : m.header.msgSeqNum = some n) (hahead : expected < n) :
    h.receive services shared m =
      if asked = none then (Turn.start h shared).requested services.now expected n
      else Turn.start h shared := by
  obtain ⟨s, hsession, -, rfl⟩ := h'.exists_session
  have hcheck : (Turn.start h shared).checkSequence services.now s m = _ :=
    Turn.checkSequence_of_ahead h'.strict hnumber hahead
  rw [receive_established h'.phase, ← h'.resendUntil]
  exact Turn.traffic_of_stopped ⟨hsession, htype, hlogon, hreset⟩ hcheck

/-- A number ahead of the expected one is answered with a request for those up to it, if
nothing is waited for. -/
theorem Awaits.gap (h' : h.Awaits id expected none) (hinput : input.Carries n)
    (hahead : expected < n) :
    (∃ request, h.answers input = [.send request] ∧ request.AsksFor expected n) ∧
      (h.next input).Awaits id expected (some n) ∧ h.tells (.input input) = [] := by
  obtain ⟨s, hsession, -, -⟩ := h'.exists_session
  cases hinput with
  | @message services shared m msgType htype hlogon hreset hnumber =>
    have hreceive : h.receive services shared m =
        (Turn.start h shared).requested services.now expected n := by
      rw [h'.receive_of_ahead htype hlogon hreset hnumber hahead]
      exact if_pos rfl
    let asking : Turn := Turn.start { h with resendUntil := some n } shared
    have hasking : asking.handler.Awaits id expected (some n) :=
      ⟨h'.strict, h'.phase, h'.sessionId, h'.expects, rfl⟩
    have hsends := Turn.sends_send (t := asking) hsession services.now
      (Admin.resendRequest expected n)
    let request := (s.stamp services.now (Admin.resendRequest expected n)).2
    refine ⟨⟨request, ?_, ⟨rfl, rfl, rfl⟩⟩, ?_, ?_⟩
    · rw [answers, hreceive]
      exact hsends.actions
    · rw [next, hreceive]
      exact hasking.of_sends hsends
    · rw [tells, hreceive]
      exact (Turn.tells_of_shared (Turn.shared_send asking _ _)).toldSince_eq

/-- A number ahead of the expected one is dropped while others are waited for. -/
theorem Awaits.drops (h' : h.Awaits id expected (some last)) (hinput : input.Carries n)
    (hahead : expected < n) :
    h.answers input = [] ∧ h.next input = h ∧ h.tells (.input input) = [] := by
  cases hinput with
  | @message services shared m msgType htype hlogon hreset hnumber =>
    have hreceive : h.receive services shared m = Turn.start h shared := by
      rw [h'.receive_of_ahead htype hlogon hreset hnumber hahead]
      exact if_neg (Option.some_ne_none last)
    rw [answers, next, tells, hreceive]
    exact ⟨rfl, rfl, List.drop_length⟩

/-- What is waited for when a number has been counted. -/
def stillAsked (asked : Option UInt32) (n : UInt32) : Option UInt32 :=
  if asked.any (· ≤ n) then none else asked

/-- A message of the application under the expected number is counted and handed on. -/
theorem Awaits.counts (h' : h.Awaits id expected asked) (hinput : input.Brings m expected) :
    (∀ action ∈ h.answers input, action.IsReply) ∧
      (h.next input).Awaits id (expected + 1) (stillAsked asked expected) ∧
      h.tells (.input input) = [.received id m] := by
  obtain ⟨s, hsession, rfl, rfl⟩ := h'.exists_session
  cases hinput.carries with
  | @message services shared m msgType htype hlogon hreset hnumber =>
    obtain ⟨⟨msgType', htype', hadministrative⟩, -, hreplies⟩ := hinput
    cases htype.symm.trans htype'
    let counted := (Turn.start h shared).counted s
    have hreceive : h.receive services shared m = counted.dispatch services s.id msgType m := by
      rw [receive_established h'.phase, Turn.traffic_of_isChecked ⟨hsession, htype, hlogon, hreset⟩
        (Turn.checkSequence_of_expected _ services.now hnumber)]
      exact Turn.process_of_isApplication hadministrative m
    have hcounted : counted.handler.Awaits s.id (s.counters.nextIncoming + 1)
        (stillAsked asked s.counters.nextIncoming) := by
      refine ⟨h'.strict, h'.phase, rfl, rfl, ?_⟩
      rw [← h'.resendUntil]
      rfl
    obtain ⟨s', messages, hsends, happlication⟩ :=
      Turn.exists_sends_dispatch (t := counted) hreplies rfl s.id msgType m
    refine ⟨?_, ?_, ?_⟩
    · intro action haction
      have hactions : h.answers (.message services shared m) = messages.map .send := by
        rw [answers, hreceive]
        exact hsends.actions
      rw [hactions, List.mem_map] at haction
      obtain ⟨reply, hreply, rfl⟩ := haction
      exact ⟨reply, rfl, happlication reply hreply⟩
    · rw [next, hreceive]
      exact hcounted.of_sends hsends
    · rw [tells, hreceive]
      exact (Turn.tells_dispatch counted services s.id msgType m).toldSince_eq

/-! ### Runs -/

/-- The actions with which the handler answers a run of inputs. -/
def acts (h : Handler) : List Input → List Action
  | [] => []
  | input :: rest => h.answers input ++ (h.next input).acts rest

/-- The numbers that were asked for are counted when they arrive, and all else that
arrives is dropped. -/
theorem Awaits.fills (h' : h.Awaits id expected (some last))
    (hfills : Input.Fills last expected inputs) :
    (∀ action ∈ h.acts inputs, action.IsReply) ∧
      (h.after inputs).Awaits id (last + 1) none ∧
      h.told (inputs.map .input) = (Input.messagesUpTo last inputs).map (.received id) := by
  induction hfills generalizing h with
  | @last input m hinput =>
    obtain ⟨hreplies, hnext, htells⟩ := h'.counts hinput
    have hdone : stillAsked (some last) last = none :=
      if_pos (decide_eq_true (UInt32.le_refl last))
    rw [hdone] at hnext
    refine ⟨?_, hnext, ?_⟩
    · rw [acts, acts, List.append_nil]
      exact hreplies
    · rw [Input.messagesUpTo_cons hinput, if_pos (UInt32.le_refl last), List.map_singleton, told,
        told, htells]
      rfl
  | @next n input m rest hn hinput hrest ih =>
    obtain ⟨hreplies, hnext, htells⟩ := h'.counts hinput
    have hwaits : stillAsked (some last) n = some last := by
      apply if_neg
      rw [Option.any_some, decide_eq_true_eq, UInt32.not_le]
      exact hn
    rw [hwaits] at hnext
    obtain ⟨hlater, hafter, htold⟩ := ih hnext
    refine ⟨?_, hafter, ?_⟩
    · rw [acts, List.forall_mem_append]
      exact ⟨hreplies, hlater⟩
    · rw [Input.messagesUpTo_cons hinput, if_pos (UInt32.le_of_lt hn), List.map_cons, List.map_cons,
        told, htells, ← htold]
      rfl
  | @ahead n k input m rest hk hinput hrest ih =>
    have hahead : n < k := UInt32.lt_of_le_of_lt hrest.numbers.1 hk
    obtain ⟨hsilent, hsame, htells⟩ := h'.drops hinput.carries hahead
    obtain ⟨hlater, hafter, htold⟩ := ih h'
    refine ⟨?_, ?_, ?_⟩
    · rw [acts, hsilent, hsame]
      exact hlater
    · rw [after, List.foldl_cons, hsame]
      exact hafter
    · have hrun : h.afterCall (.input input) = h := hsame
      rw [Input.messagesUpTo_cons hinput, if_neg (UInt32.not_le.2 hk), List.map_cons, told, htells,
        hrun]
      exact htold

/-- A gap of any size is closed.  A strict handler that waits for nothing receives a
number ahead of the one that it expects, and then the numbers that are missing, with any
others further ahead in between.  It sends one request for what is missing and closes
nothing, it hands on the messages up to that number in order and no others, and then it
is ready for the next gap. -/
theorem gap_recovered (h : Handler) (id : SessionId) (expected last : UInt32)
    (hstart : h.Awaits id expected none) (hgap : expected < last) (hbelow : last < 0xFFFFFFFF)
    (first : Input) (m : Message) (hfirst : first.Brings m last) (rest : List Input)
    (hrest : Input.Fills last expected rest) :
    (∃ request, request.AsksFor expected last ∧ h.answers first = [.send request] ∧
      (h.acts (first :: rest)).filter Action.isResendRequest = [.send request]) ∧
    (∀ action ∈ h.acts (first :: rest), action.isDisconnect = false) ∧
    h.told ((first :: rest).map .input) =
      (Input.messagesUpTo last rest).map (.received id) ∧
    (Input.messagesUpTo last rest).map (fun m => m.header.msgSeqNum.map UInt32.toNat) =
      (List.range' expected.toNat (last.toNat + 1 - expected.toNat)).map some ∧
    (h.after (first :: rest)).Awaits id (last + 1) none ∧
    ∀ (later : Input) (n : UInt32), later.Carries n → last.toNat + 1 < n.toNat →
      ∃ request, request.AsksFor (last + 1) n ∧
        (h.after (first :: rest)).answers later = [.send request] := by
  obtain ⟨⟨request, hanswers, hasks⟩, hnext, htells⟩ := hstart.gap hfirst.carries hgap
  obtain ⟨hreplies, hafter, htold⟩ := hnext.fills hrest
  refine ⟨⟨request, hasks, hanswers, ?_⟩, ?_, ?_, hrest.numbers.2, hafter, ?_⟩
  · have hrequest : (Action.send request).isResendRequest = true := decide_eq_true hasks.msgType
    have hnone : ((h.next first).acts rest).filter Action.isResendRequest = [] := by
      rw [List.filter_eq_nil_iff]
      intro action haction
      rw [(hreplies action haction).isResendRequest]
      exact Bool.false_ne_true
    rw [acts, hanswers, List.singleton_append, List.filter_cons_of_pos hrequest, hnone]
  · rw [acts, hanswers, List.singleton_append, List.forall_mem_cons]
    exact ⟨rfl, fun action haction => (hreplies action haction).isDisconnect⟩
  · rw [List.map_cons, told, htells, List.nil_append]
    exact htold
  · intro later n hlater hahead
    have hlt : last + 1 < n := by
      rw [UInt32.lt_iff_toNat_lt, toNat_succ_of_lt hbelow]
      exact hahead
    obtain ⟨⟨request, hanswers, hasks⟩, -, -⟩ := hafter.gap hlater hlt
    exact ⟨request, hasks, hanswers⟩

/-- News under a number, marked as a repetition. -/
def sampleRepeated (n : UInt32) : Input :=
  sampleInput n { Message.ofType .news [] with header.fields := [⟨Tag.possDupFlag, .flag true⟩] }

/-- The news from two to four are repeated, and those under seven come in between. -/
def sampleRefill : List Input :=
  [sampleRepeated 2, sampleInput 7 (Message.ofType .news []), sampleRepeated 3, sampleRepeated 4]

theorem exists_brings_sampleInput (n : UInt32) {m : Message} (hm : m.IsApplication) :
    ∃ stamped, (sampleInput n m).Brings stamped n := by
  refine ⟨_, .message hm rfl ?_⟩
  intro events id m replies hanswer reply hreply
  cases hanswer
  exact absurd hreply List.not_mem_nil

theorem fills_sampleRefill : Input.Fills 4 2 sampleRefill := by
  have hnews (n : UInt32) : ∃ m, (sampleInput n (Message.ofType .news [])).Brings m n :=
    exists_brings_sampleInput n ⟨.news, rfl, rfl⟩
  have hrepeated (n : UInt32) : ∃ m, (sampleRepeated n).Brings m n :=
    exists_brings_sampleInput n ⟨.news, rfl, rfl⟩
  obtain ⟨_, htwo⟩ := hrepeated 2
  obtain ⟨_, hthree⟩ := hrepeated 3
  obtain ⟨_, hfour⟩ := hrepeated 4
  obtain ⟨_, hseven⟩ := hnews 7
  exact .next (by decide) htwo (.ahead (by decide) hseven (.next (by decide) hthree (.last hfour)))

/-- News under four open a gap, which is closed up to four. -/
theorem gap_recovered_sample :
    ∃ (id : SessionId) (m : Message), sampleAcceptor.Awaits id 2 none ∧ (2 : UInt32) < 4 ∧
      (4 : UInt32) < 0xFFFFFFFF ∧ (sampleInput 4 (Message.ofType .news [])).Brings m 4 ∧
      Input.Fills 4 2 sampleRefill ∧
      (sampleAcceptor.after (sampleInput 4 (Message.ofType .news []) :: sampleRefill)).Awaits
        id 5 none := by
  let id : SessionId := { senderCompId := "SERVER", targetCompId := "CLIENT" }
  have hstart : sampleAcceptor.Awaits id 2 none := ⟨rfl, rfl, rfl, rfl, rfl⟩
  obtain ⟨m, hfirst⟩ := exists_brings_sampleInput 4 (m := Message.ofType .news []) ⟨.news, rfl, rfl⟩
  obtain ⟨-, -, -, -, hafter, -⟩ := gap_recovered sampleAcceptor id 2 4 hstart (by decide)
    (by decide) _ m hfirst sampleRefill fills_sampleRefill
  exact ⟨id, m, hstart, by decide, by decide, hfirst, fills_sampleRefill, hafter⟩

end Handler

end FixEngine
