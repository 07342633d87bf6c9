import FixEngine.Engine.Connection
import FixEngine.Proofs.Engine.Lifetime
import FixEngine.Proofs.Wire.Streaming
import FixEngine.Proofs.Wire.Writing

/-!
# What a connection writes

A connection hands its handler the messages that arrive and those that the
application sends, and writes what the handler hands out.  A message takes its
number before it is written.  So the numbers on the wire follow one another except
for those of the messages that may not stand on the wire, which are lost with
their messages.
-/

namespace FixEngine

/-- The wire forms of messages in order; those that may not stand on the wire are
left out. -/
def Stream.wire (messages : List Message) : Bytes :=
  (messages.filterMap fun m => m.encode.toOption).flatten

theorem Stream.wire_append (left right : List Message) :
    wire (left ++ right) = wire left ++ wire right := by
  rw [wire, List.filterMap_append, List.flatten_append]
  rfl

/-- What a connection is woken by. -/
inductive Wake where
  /-- Bytes arrive from the other side. -/
  | bytes (services : Services) (bytes : Bytes)
  /-- The application sends a message. -/
  | message (services : Services) (m : Message)
  /-- Other connections have changed what the handlers have in common. -/
  | shared (shared : Shared)
  /-- The other side has closed the connection. -/
  | closed

namespace Connection

variable {c c' c'' : Connection} {h : Handler} {life : Life} {messages more : List Message}
  {inputs : List Input} {t : Turn}

/-! ### Performing actions -/

/-- A connection goes on by writing messages. -/
structure Writes (c : Connection) (messages : List Message) (c' : Connection) : Prop where
  handler : c'.handler = c.handler
  outcome : c'.outcome = c.outcome
  written : c'.written = c.written ++ Stream.wire messages

theorem Writes.refl (c : Connection) : c.Writes [] c := ⟨rfl, rfl, (List.append_nil _).symm⟩

theorem Writes.trans (hwrites : c.Writes messages c') (hmore : c'.Writes more c'') :
    c.Writes (messages ++ more) c'' where
  handler := hmore.handler.trans hwrites.handler
  outcome := hmore.outcome.trans hwrites.outcome
  written := by rw [hmore.written, hwrites.written, Stream.wire_append, List.append_assoc]

theorem writes_write (c : Connection) (m : Message) : c.Writes [m] (c.write m) := by
  cases hencode : m.encode with
  | ok bytes =>
    have hwire : Stream.wire [m] = bytes := by
      simp only [Stream.wire, List.filterMap_cons, List.filterMap_nil, hencode, Except.toOption,
        List.flatten_cons, List.flatten_nil, List.append_nil]
    simp only [write, Stream.write, hencode, Except.map]
    exact ⟨rfl, rfl, hwire ▸ rfl⟩
  | error fault =>
    have hwire : Stream.wire [m] = [] := by
      simp only [Stream.wire, List.filterMap_cons, List.filterMap_nil, hencode, Except.toOption,
        List.flatten_nil]
    simp only [write, Stream.write, hencode, Except.map]
    exact ⟨rfl, rfl, by rw [hwire, List.append_nil]⟩

theorem isOver_finish (c : Connection) (outcome : Except StreamFault Unit) :
    (c.finish outcome).isOver = true := by
  unfold finish
  split
  · assumption
  · rfl

theorem written_finish (c : Connection) (outcome : Except StreamFault Unit) :
    (c.finish outcome).written = c.written := by
  unfold finish
  split <;> rfl

/-- Messages are written before what follows them is performed. -/
theorem exists_writes_perform (c : Connection) (messages : List Message) (last : List Action) :
    ∃ c', c.Writes messages c' ∧ c.perform (messages.map .send ++ last) = c'.perform last := by
  induction messages generalizing c with
  | nil => exact ⟨c, .refl c, rfl⟩
  | cons m rest ih =>
    obtain ⟨c', hwrites, hperform⟩ := ih (c.write m)
    exact ⟨c', (c.writes_write m).trans hwrites, hperform⟩

/-- What a turn hands out is written, and the connection goes on with its handler
unless the turn closes it. -/
theorem adopt_spec (c : Connection) (ht : t.IsOrderly) :
    (c.adopt t).written = c.written ++ Stream.wire t.messages ∧
      ((c.adopt t).isOver = false → (c.adopt t).handler = t.handler) := by
  let taken : Connection := { c with handler := t.handler, shared := t.shared }
  have hadopt : c.adopt t = taken.perform t.actions := rfl
  rcases ht with hactions | ⟨reason, hactions⟩
  · obtain ⟨c', hwrites, hperform⟩ := taken.exists_writes_perform t.messages []
    rw [List.append_nil, ← hactions] at hperform
    rw [hadopt, hperform]
    exact ⟨hwrites.written, fun _ => hwrites.handler⟩
  · obtain ⟨c', hwrites, hperform⟩ :=
      taken.exists_writes_perform t.messages [.disconnect reason]
    rw [← hactions] at hperform
    rw [hadopt, hperform]
    refine ⟨(written_finish c' _).trans hwrites.written, ?_⟩
    intro hlive
    have hover : (c'.perform [.disconnect reason]).isOver = true := isOver_finish c' _
    rw [hover] at hlive
    contradiction

/-! ### What the handler is told -/

/-- The inputs that a connection hands to its handler as it goes on. -/
inductive Hands : Connection → List Input → Connection → Prop
  /-- Bytes wait, or other connections change what the handlers have in common. -/
  | aside {c c' : Connection} (hhandler : c'.handler = c.handler)
      (hwritten : c'.written = c.written) (houtcome : c'.outcome = c.outcome) : Hands c [] c'
  | finished (c : Connection) (outcome : Except StreamFault Unit) : Hands c [] (c.finish outcome)
  | message {c : Connection} (hlive : c.isOver = false) (services : Services) (m : Message) :
      Hands c [.message services c.shared m] (c.adopt (c.handler.receive services c.shared m))
  | stamped {c : Connection} {now : Timestamp} {m stamped : Message} {number : UInt32}
      {handler : Handler} (hlive : c.isOver = false)
      (hstamp : c.handler.stamp now m = ⟨.ok number, handler, stamped⟩) :
      Hands c [.stamp now m] ({ c with handler }.write stamped)
  | refused {c : Connection} {now : Timestamp} {m unsent : Message} {fault : SessionFault}
      {handler : Handler} (hlive : c.isOver = false)
      (hstamp : c.handler.stamp now m = ⟨.error fault, handler, unsent⟩) :
      Hands c [.stamp now m] { c with handler }
  | trans {c c' c'' : Connection} {inputs more : List Input} (hfirst : Hands c inputs c')
      (hmore : Hands c' more c'') : Hands c (inputs ++ more) c''

theorem Hands.refl (c : Connection) : c.Hands [] c := .aside rfl rfl rfl

theorem exists_hands_takeUp (c : Connection) (services : Services)
    (item : Except StreamFault Delivery) : ∃ inputs, c.Hands inputs (c.takeUp services item) := by
  unfold takeUp
  split
  · exact ⟨[], .refl c⟩
  · next hlive =>
    cases item with
    | error fault => exact ⟨[], .finished c (.error fault)⟩
    | ok delivery =>
      cases delivery with
      | error fault => exact ⟨[], .refl c⟩
      | ok m => exact ⟨_, .message (Bool.not_eq_true _ ▸ hlive) services m⟩

theorem exists_hands_takeIn (c : Connection) (services : Services) (bytes : Bytes) :
    ∃ inputs, c.Hands inputs (c.takeIn services bytes) := by
  have hitems : ∀ (items : List (Except StreamFault Delivery)) (c : Connection),
      ∃ inputs, c.Hands inputs (items.foldl (fun c item => c.takeUp services item) c) := by
    intro items
    induction items with
    | nil => exact fun c => ⟨[], .refl c⟩
    | cons item rest ih =>
      intro c
      obtain ⟨inputs, hfirst⟩ := c.exists_hands_takeUp services item
      obtain ⟨more, hrest⟩ := ih (c.takeUp services item)
      exact ⟨inputs ++ more, hfirst.trans hrest⟩
  let drained : Connection := { c with stream := (c.stream.push bytes).drain.1 }
  have hdrained : c.Hands [] drained := .aside rfl rfl rfl
  obtain ⟨inputs, htaken⟩ := hitems (c.stream.push bytes).drain.2 drained
  exact ⟨_, hdrained.trans htaken⟩

/-- The bytes that arrive are read piece by piece. -/
theorem exists_hands_receive (c : Connection) (services : Services) (bytes : Bytes) :
    ∃ inputs, c.Hands inputs (c.receive services bytes) := by
  fun_induction receive c services bytes with
  | case1 c => exact ⟨[], .refl c⟩
  | case2 c bytes hgoesOn waiting room piece next takenUp ih =>
    obtain ⟨inputs, hpiece⟩ := c.exists_hands_takeIn services piece
    obtain ⟨more, hrest⟩ := ih
    have hroom : next.Hands [] { next with room := room.afterReading piece.length takenUp } :=
      .aside rfl rfl rfl
    exact ⟨_, hpiece.trans (hroom.trans hrest)⟩

/-- The connection after it has been woken. -/
def step (c : Connection) : Wake → Connection
  | .bytes services bytes => c.receive services bytes
  | .message services m =>
    match c.send services m with
    | .ok c => c
    | .error _ => c
  | .shared shared => { c with shared }
  | .closed => c.peerClosed

/-- The connection after it has been woken time and again. -/
def run (c : Connection) (wakes : List Wake) : Connection := wakes.foldl step c

theorem exists_hands_step (c : Connection) (wake : Wake) :
    ∃ inputs, c.Hands inputs (c.step wake) := by
  cases wake with
  | bytes services bytes => exact c.exists_hands_receive services bytes
  | message services m =>
    simp only [step, send]
    cases hlive : c.isOver with
    | true => exact ⟨[], .refl c⟩
    | false =>
      cases hstamp : c.handler.stamp services.now m with
      | mk result handler message =>
        cases result with
        | ok number => exact ⟨_, .stamped hlive hstamp⟩
        | error fault => exact ⟨_, .refused hlive hstamp⟩
  | shared shared => exact ⟨[], .aside rfl rfl rfl⟩
  | closed =>
    have hfinished : c.Hands [] { c with stream := c.stream.finish.1 } := .aside rfl rfl rfl
    exact ⟨_, hfinished.trans (.finished _ (.ok ()))⟩

theorem exists_hands_run (c : Connection) (wakes : List Wake) :
    ∃ inputs, c.Hands inputs (c.run wakes) := by
  induction wakes generalizing c with
  | nil => exact ⟨[], .refl c⟩
  | cons wake rest ih =>
    obtain ⟨inputs, hfirst⟩ := c.exists_hands_step wake
    obtain ⟨more, hrest⟩ := ih (c.step wake)
    exact ⟨_, hfirst.trans hrest⟩

/-! ### One reading -/

theorem receive_nil (c : Connection) (services : Services) : c.receive services [] = c := by
  rw [receive, dif_pos (.inr rfl)]

/-- Bytes for which there is room are taken in at one reading. -/
theorem receive_of_room {services : Services} {bytes : Bytes} (hlive : c.isOver = false)
    (hbytes : bytes ≠ [])
    (hroom : bytes.length ≤ (c.room.renewed c.stream.intake.buffer.length).free) :
    c.receive services bytes =
      { c.takeIn services bytes with
        room := (c.room.renewed c.stream.intake.buffer.length).afterReading bytes.length
          (c.stream.intake.buffer.length + bytes.length
            - (c.takeIn services bytes).stream.intake.buffer.length) } := by
  have hgoesOn : ¬(c.isOver = true ∨ bytes = []) := by
    rintro (hover | hnil)
    · rw [hlive] at hover
      contradiction
    · exact hbytes hnil
  rw [receive, dif_neg hgoesOn]
  simp only [List.take_of_length_le hroom, List.drop_of_length_le hroom, receive_nil]

/-- Lines that are taken in are assembled, and what they complete is taken up. -/
theorem takeIn_of_holds {services : Services} {bytes : Bytes} {lines : List Bytes} {tail : Bytes}
    (hholds : (c.stream.push bytes).Holds lines tail) :
    c.takeIn services bytes =
      ((Assembler.run c.stream.dictionary c.stream.assembler
        (lines.map (· ++ [Ascii.soh]))).2.map .ok).foldl (fun c item => c.takeUp services item)
          { c with stream :=
            { c.stream with
              intake := ⟨c.stream.intake.limit, tail.length, tail⟩
              assembler := (Assembler.run c.stream.dictionary c.stream.assembler
                (lines.map (· ++ [Ascii.soh]))).1 } } := by
  simp only [takeIn, Stream.drain_eq hholds]
  rfl

/-! ### What has been written -/

/-- A connection has written all that its handler has handed out in its life so
far, without what may not stand on the wire. -/
structure Conveys (c : Connection) (h : Handler) (life : Life) : Prop where
  handler : c.isOver = false → c.handler = (h.opened life).after life.inputs
  written : c.written = Stream.wire (h.messages life)

theorem conveys_start (h : Handler) (services : Services) (shared : Shared) (stream : Stream) :
    (start services h shared stream).Conveys h ⟨services, shared, [], shared⟩ := by
  let fresh : Connection :=
    { handler := h, shared, stream, room := .initial, written := [], outcome := none }
  obtain ⟨hwritten, hhandler⟩ := fresh.adopt_spec (h.isOrderly_connected services shared)
  refine ⟨hhandler, ?_⟩
  rw [Handler.messages, Handler.messages_disconnected, List.append_nil, Handler.said,
    List.append_nil]
  exact hwritten

theorem Conveys.extend (hconveys : c.Conveys h life)
    (hhandler : c'.isOver = false →
      c'.handler = ((h.opened life).after life.inputs).after inputs)
    (hwritten : c'.written =
      c.written ++ Stream.wire (((h.opened life).after life.inputs).said inputs)) :
    c'.Conveys h (life.extend inputs) where
  handler hlive := (hhandler hlive).trans (h.after_extend life inputs).symm
  written := by
    rw [hwritten, hconveys.written, Handler.messages_extend, Stream.wire_append]

/-- What a connection hands to its handler extends the life of the handler. -/
theorem Hands.conveys (hnew : h.IsNew) (hhands : c.Hands inputs c') (hconveys : c.Conveys h life) :
    c'.Conveys h (life.extend inputs) := by
  -- A connection that is over has written all that its handler handed out, but the
  -- handler is done, so only an open connection is tied to the handler of the run.
  induction hhands generalizing life with
  | @aside c c' hhandler hwritten houtcome =>
    refine hconveys.extend ?_ ?_
    · intro hlive
      rw [isOver, houtcome] at hlive
      exact hhandler.trans (hconveys.handler hlive)
    · exact hwritten.trans (List.append_nil _).symm
  | finished c outcome =>
    refine hconveys.extend ?_ ?_
    · intro hlive
      rw [isOver_finish] at hlive
      contradiction
    · exact (written_finish c outcome).trans (List.append_nil _).symm
  | @message c hlive services m =>
    have hhandler := hconveys.handler hlive
    have hpoised := (Handler.isPoised_opened hnew life).after life.inputs
    rw [← hhandler] at hpoised
    obtain ⟨hwritten, hnext⟩ :=
      c.adopt_spec (Handler.isOrderly_receive hpoised services c.shared m)
    refine hconveys.extend ?_ ?_
    · rw [← hhandler]
      exact hnext
    · rw [← hhandler, Handler.said, Handler.said, List.append_nil]
      exact hwritten
  | @stamped c now m stamped number handler hlive hstamp =>
    have hhandler := hconveys.handler hlive
    have hwrites := writes_write { c with handler } stamped
    refine hconveys.extend ?_ ?_
    · intro _
      rw [← hhandler, hwrites.handler, Handler.after, List.foldl_cons, List.foldl_nil,
        Handler.next, hstamp]
    · rw [← hhandler, Handler.said, Handler.said, List.append_nil, Handler.handsOut, hstamp]
      exact hwrites.written
  | @refused c now m unsent fault handler hlive hstamp =>
    have hhandler := hconveys.handler hlive
    refine hconveys.extend ?_ ?_
    · intro _
      rw [← hhandler, Handler.after, List.foldl_cons, List.foldl_nil, Handler.next, hstamp]
    · rw [← hhandler, Handler.said, Handler.said, Handler.handsOut, hstamp]
      exact (List.append_nil _).symm
  | trans hfirst hmore ihfirst ihmore =>
    rw [Life.extend_append]
    exact ihmore (ihfirst hconveys)

/-- In every run of a connection the messages of the session take one number after
another, and those that may stand on the wire are written, complete and in this
order.  While the connection goes on, no number has been taken but by one of these
messages. -/
theorem written_eq_wire (hnew : h.IsNew) (services : Services) (shared : Shared) (stream : Stream)
    (wakes : List Wake) :
    ∃ life : Life, life.services = services ∧ life.shared = shared ∧
      (start services h shared stream).Hands life.inputs
        ((start services h shared stream).run wakes) ∧
      ((start services h shared stream).run wakes).written = Stream.wire (h.messages life) ∧
      ∀ s, h.RegistersIn life s →
        (∀ k m, (h.messages life)[k]? = some m →
          m.header.msgSeqNum = some (s.counters.nextOutgoing + UInt32.ofNat k) ∧ s.Marks m) ∧
        (((start services h shared stream).run wakes).isOver = false →
          ∀ s', ((start services h shared stream).run wakes).handler.session = some s' →
            s'.counters.nextOutgoing =
              s.counters.nextOutgoing + UInt32.ofNat (h.messages life).length) := by
  obtain ⟨inputs, hhands⟩ := (start services h shared stream).exists_hands_run wakes
  have hconveys := hhands.conveys hnew (conveys_start h services shared stream)
  refine ⟨_, rfl, rfl, hhands, hconveys.written, ?_⟩
  intro s hregisters
  constructor
  · intro k m hm
    obtain ⟨s', hstamps⟩ := hregisters.exists_stamps hnew
    exact hstamps.getElem? hm
  · intro hlive s' hsession
    rw [hconveys.handler hlive] at hsession
    cases hregisters.hasSaid hnew with
    | inside hinside hstamps =>
      cases hinside.symm.trans hsession
      exact hstamps.consecutive.last_eq
    | done hdone =>
      rw [hdone] at hsession
      contradiction

def sampleServices : Services := ⟨.silent, .acceptAll, .epoch, .fresh⟩

/-- An initiator whose logon is on its way, and whose application sends too early. -/
theorem written_eq_wire_sample :
    ∃ (h : Handler) (life : Life) (s : Session) (logon : Message), h.IsNew ∧
      h.RegistersIn life s ∧ (h.messages life)[0]? = some logon ∧
      logon.header.msgSeqNum = some 1 ∧
      ((start sampleServices h .empty (.start .usual Intake.usualLimit)).run
        [.message sampleServices (Message.ofType .news [])]).written =
          Stream.wire (h.messages life) := by
  let settings := Settings.ofId "FIX.4.4" { senderCompId := "CLIENT", targetCompId := "SERVER" }
  have hnew : (Handler.initiator settings 1 none).IsNew := .initiator settings 1 none
  obtain ⟨life, hservices, hshared, -, hwritten, hnumbered⟩ := written_eq_wire hnew sampleServices
    .empty (.start .usual Intake.usualLimit) [.message sampleServices (Message.ofType .news [])]
  have hregisters : (Handler.initiator settings 1 none).RegistersIn life
      (.start settings.id settings.beginString 1 1) := by
    refine .asked rfl ?_ ?_
    · rw [hservices]
      rfl
    · rw [hshared]
      rfl
  obtain ⟨logon, hlogon⟩ :
      ∃ logon, ((Handler.initiator settings 1 none).messages life)[0]? = some logon := by
    refine ⟨((Session.start settings.id settings.beginString 1 1).stamp .epoch
      (Admin.logonOf settings)).2, ?_⟩
    rw [Handler.messages, hservices, hshared]
    rfl
  exact ⟨_, life, _, logon, hnew, hregisters, hlogon,
    ((hnumbered _ hregisters).1 0 logon hlogon).1, hwritten⟩

/-- The logon of the other side. -/
def sampleLogon : Message :=
  let id : SessionId := { senderCompId := "CLIENT", targetCompId := "SERVER" }
  ((Session.start id "FIX.4.4" 1 1).stamp .epoch (Admin.logon 30 false)).2

def sampleConnection : Connection :=
  start sampleServices (.acceptor true 1 none) .empty (.start .usual Intake.usualLimit)

/-- The logon arrives in one piece. -/
theorem holds_sampleLogon :
    (sampleConnection.stream.push sampleLogon.render).Holds
      ((sampleLogon.firstRecord :: (sampleLogon.innerRecords ++ [sampleLogon.lastRecord])).map
        Record.head) [] where
  buffer := by
    have hlines := Stream.render_eq_unlines
      (sampleLogon.firstRecord :: (sampleLogon.innerRecords ++ [sampleLogon.lastRecord]))
    rw [← Message.render_eq] at hlines
    exact hlines.trans (List.append_nil _).symm
  scanned := Intake.isScanned_of_zero rfl
  fits := by
    have hfits : ∀ line ∈ (sampleLogon.firstRecord :: (sampleLogon.innerRecords
        ++ [sampleLogon.lastRecord])).map Record.head,
        Ascii.soh ∉ line ∧ line.length + 1 ≤ Intake.usualLimit := by decide +kernel
    intro line hline
    exact ⟨(hfits line hline).1, (hfits line hline).2⟩
  soh_not_mem := List.not_mem_nil
  length_le := Nat.zero_le _

/-- When the logon has arrived the application sends news with an empty text, which
may not stand on the wire, and then news that may. -/
def lossyWakes : List Wake :=
  [.bytes sampleServices sampleLogon.render,
    .message sampleServices (Message.ofType .news [.field ⟨Tag.text, .text ""⟩]),
    .message sampleServices (Message.ofType .news [])]

/-- The other side reads the numbers one and three, while three numbers have been
taken. -/
theorem exists_number_lost :
    ∃ (h : Handler) (stream : Stream) (wakes : List Wake), h.IsNew ∧
      (Message.decodeAll .usual
        ((start sampleServices h .empty stream).run wakes).written).map
          (fun delivery => delivery.toOption.bind (·.header.msgSeqNum)) = [some 1, some 3] ∧
      ((start sampleServices h .empty stream).run wakes).handler.session.map
        (·.counters.nextOutgoing) = some 4 := by
  refine ⟨.acceptor true 1 none, .start .usual Intake.usualLimit, lossyWakes,
    .acceptor true 1 none, ?_⟩
  have hne : sampleLogon.render ≠ [] := by decide +kernel
  have hroom : sampleLogon.render.length ≤
      (sampleConnection.room.renewed sampleConnection.stream.intake.buffer.length).free := by
    decide +kernel
  have hreceive : sampleConnection.receive sampleServices sampleLogon.render = _ :=
    receive_of_room rfl hne hroom
  rw [takeIn_of_holds holds_sampleLogon] at hreceive
  rw [← sampleConnection, run, lossyWakes, List.foldl_cons]
  simp only [step]
  rw [hreceive]
  decide +kernel

end Connection

end FixEngine
