import FixEngine.Proofs.Wire.Emission
import FixEngine.Proofs.Wire.Segment
import FixEngine.Proofs.Wire.Streaming

/-!
# The pieces of a stream

The bytes of a stream are taken off its front in pieces: records within the limit,
which are assembled, and bytes beyond the limit, which are dropped.  Every message
that is handed over is made by a segment of the records that were taken off.  The
segment stands in the stream as it is if nothing was dropped among its records and
the first of them is not the rest of a record whose beginning was dropped.
-/

namespace FixEngine

/-- A piece that was taken off the front of a stream. -/
inductive Piece where
  | record (raw : Bytes)
  /-- Bytes beyond the limit. -/
  | dropped (bytes : Bytes)

namespace Piece

def bytes : Piece → Bytes
  | record raw => raw
  | dropped bytes => bytes

def record? : Piece → Option Bytes
  | record raw => some raw
  | dropped _ => none

/-- How many bytes were dropped. -/
def droppedLength? : Piece → Option Nat
  | record _ => none
  | dropped bytes => some bytes.length

/-- What the taking of the piece answers. -/
def taken : Piece → Taken
  | record raw => .record raw
  | dropped bytes => .tooLong bytes.length

def IsDelimited (p : Piece) : Prop := p.bytes.getLast? = some Ascii.soh

/-- A piece as it is taken off a stream with a limit. -/
inductive IsProper (limit : Nat) : Piece → Prop
  | record {line : Bytes} (hline : Ascii.soh ∉ line) (hlimit : line.length + 1 ≤ limit) :
      IsProper limit (.record (line ++ [Ascii.soh]))
  | beyond {line : Bytes} (hline : Ascii.soh ∉ line) (hlimit : limit < line.length + 1) :
      IsProper limit (.dropped (line ++ [Ascii.soh]))
  /-- The delimiter had not arrived when the bytes were dropped. -/
  | overflow {bytes : Bytes} (hbytes : Ascii.soh ∉ bytes) (hlimit : limit < bytes.length) :
      IsProper limit (.dropped bytes)

end Piece

namespace Intake

variable {intake : Intake} {received : Bytes} {pieces : List Piece}

theorem limit_take (intake : Intake) : intake.take.1.limit = intake.limit := by
  unfold take
  split
  · split <;> rfl
  · dsimp only
    split <;> rfl

/-- The bytes received so far are the pieces taken off, and those that wait. -/
structure Parted (intake : Intake) (received : Bytes) (pieces : List Piece) : Prop where
  received : received = pieces.flatMap Piece.bytes ++ intake.buffer
  proper : ∀ p ∈ pieces, p.IsProper intake.limit
  scanned : intake.IsScanned
  scanned_le : intake.scanned ≤ intake.buffer.length

theorem Parted.push (h : intake.Parted received pieces) (bytes : Bytes) :
    (intake.push bytes).Parted (received ++ bytes) pieces where
  received := by rw [h.received, List.append_assoc]; rfl
  proper := h.proper
  scanned := by
    have htake : (intake.buffer ++ bytes).take intake.scanned =
        intake.buffer.take intake.scanned := List.take_append_of_le_length h.scanned_le
    rw [IsScanned]
    exact htake.symm ▸ h.scanned
  scanned_le := by
    have hlength : (intake.push bytes).buffer.length = intake.buffer.length + bytes.length :=
      List.length_append
    rw [hlength]
    exact Nat.le_add_right_of_le h.scanned_le

/-- The bytes behind a piece wait after it has been taken off. -/
theorem Parted.takeOff (h : intake.Parted received pieces) {p : Piece} {rest : Bytes}
    (hproper : p.IsProper intake.limit) (hbuffer : intake.buffer = p.bytes ++ rest) :
    ({ intake with scanned := 0, buffer := rest } : Intake).Parted received (pieces ++ [p]) where
  received := by
    rw [h.received, hbuffer, List.flatMap_append, List.flatMap_singleton, List.append_assoc]
  proper := List.forall_mem_append.2 ⟨h.proper, List.forall_mem_singleton.2 hproper⟩
  scanned := isScanned_of_zero rfl
  scanned_le := Nat.zero_le _

/-- Taking finds nothing, or it takes a piece off. -/
theorem Parted.take (h : intake.Parted received pieces) :
    (intake.take.2 = .nothing ∧ intake.take.1.Parted received pieces) ∨
      ∃ p : Piece, intake.take.2 = p.taken ∧ intake.take.1.Parted received (pieces ++ [p]) := by
  obtain ⟨lines, tail, hbuffer, hlines, htail⟩ := Stream.exists_unlines intake.buffer
  cases lines with
  | nil =>
    have hopen : Ascii.soh ∉ intake.buffer := hbuffer ▸ htail
    by_cases hlimit : intake.buffer.length ≤ intake.limit
    · rw [take_tail hopen hlimit]
      refine .inl ⟨rfl, h.received, h.proper, ?_, Nat.le_refl _⟩
      rw [IsScanned, List.take_length]
      exact hopen
    · rw [Nat.not_le] at hlimit
      rw [take_overflow hopen hlimit]
      exact .inr ⟨.dropped intake.buffer, rfl,
        h.takeOff (.overflow hopen hlimit) (List.append_nil _).symm⟩
  | cons line more =>
    have hline := (List.forall_mem_cons.1 hlines).1
    have hfront : intake.buffer = (line ++ [Ascii.soh]) ++ (Stream.unlines more ++ tail) := by
      rw [hbuffer, Stream.unlines, List.flatMap_cons, List.append_assoc]
      rfl
    have hfirst : intake.buffer = line ++ Ascii.soh :: (Stream.unlines more ++ tail) := by
      rw [hfront, List.append_assoc, List.singleton_append]
    by_cases hlimit : line.length + 1 ≤ intake.limit
    · rw [take_line h.scanned hline hlimit hfirst]
      exact .inr ⟨.record (line ++ [Ascii.soh]), rfl, h.takeOff (.record hline hlimit) hfront⟩
    · rw [Nat.not_le] at hlimit
      rw [take_beyond h.scanned hline hlimit hfirst]
      refine .inr ⟨.dropped (line ++ [Ascii.soh]), ?_, h.takeOff (.beyond hline hlimit) hfront⟩
      rw [Piece.taken, List.length_append, List.length_singleton]

end Intake

namespace Stream

/-! ### Calls -/

/-- What the reader of a stream does with it. -/
inductive Call where
  | push (bytes : Bytes)
  | next
  | finish
  deriving DecidableEq

/-- The bytes that a call adds. -/
def Call.pushed : Call → Bytes
  | push bytes => bytes
  | _ => []

/-- The stream after a call, and what the call finds ready. -/
def perform (s : Stream) : Call → Stream × Ready
  | .push bytes => (s.push bytes, none)
  | .next => s.next
  | .finish => s.finish

/-- The stream after calls. -/
def after (s : Stream) (calls : List Call) : Stream :=
  calls.foldl (fun s call => (s.perform call).1) s

/-- What each of some calls finds ready, and the bytes that it leaves. -/
def answers (s : Stream) : List Call → List (Ready × Bytes)
  | [] => []
  | call :: rest =>
    ((s.perform call).2, (s.perform call).1.intake.buffer) :: (s.perform call).1.answers rest

/-- The bytes that calls add. -/
def received (calls : List Call) : Bytes := calls.flatMap Call.pushed

/-- The length of a record beyond the limit, where one is reported. -/
def reported? : Ready → Option Nat
  | some (.error (.recordTooLong length _)) => some length
  | _ => none

theorem after_append (s : Stream) (left right : List Call) :
    s.after (left ++ right) = (s.after left).after right :=
  List.foldl_append

theorem answers_append (s : Stream) (left right : List Call) :
    s.answers (left ++ right) = s.answers left ++ (s.after left).answers right := by
  induction left generalizing s with
  | nil => rfl
  | cons call rest ih =>
    rw [List.cons_append, answers, ih, answers]
    rfl

/-! ### Pieces taken off by calls -/

variable {d : Dictionary} {limit : Nat} {s : Stream} {bytes : Bytes} {pieces : List Piece}

/-- A stream has taken pieces off the bytes received, and assembled the records
among them. -/
structure Reads (s : Stream) (d : Dictionary) (limit : Nat) (bytes : Bytes)
    (pieces : List Piece) : Prop where
  dictionary : s.dictionary = d
  limit : s.intake.limit = limit
  parted : s.intake.Parted bytes pieces
  assembler : s.assembler = Assembler.after d .idle (pieces.filterMap Piece.record?)

theorem reads_start (d : Dictionary) (limit : Nat) : (start d limit).Reads d limit [] [] :=
  ⟨rfl, rfl, ⟨rfl, by simp, Intake.isScanned_of_zero rfl, Nat.zero_le _⟩, rfl⟩

/-- What can be taken off a stream next. -/
inductive Takes (s : Stream) (d : Dictionary) (limit : Nat) (bytes : Bytes)
    (pieces : List Piece) : Prop
  | nothing {intake : Intake} (htake : s.intake.take = (intake, .nothing))
      (hreads : ({ s with intake } : Stream).Reads d limit bytes pieces)
  | dropped {intake : Intake} {dropped : Bytes}
      (htake : s.intake.take = (intake, .tooLong dropped.length))
      (hreads : ({ s with intake } : Stream).Reads d limit bytes (pieces ++ [.dropped dropped]))
  | record {intake : Intake} {raw : Bytes} (htake : s.intake.take = (intake, .record raw))
      (hreads : ({ s with intake, assembler := (s.assembler.step s.dictionary raw).1 } :
        Stream).Reads d limit bytes (pieces ++ [.record raw]))

theorem Reads.takes (h : s.Reads d limit bytes pieces) : s.Takes d limit bytes pieces := by
  have hlimit : s.intake.take.1.limit = limit := (Intake.limit_take s.intake).trans h.limit
  rcases h.parted.take with ⟨hnothing, hparted⟩ | ⟨p, htaken, hparted⟩
  · exact .nothing (Prod.ext rfl hnothing) ⟨h.dictionary, hlimit, hparted, h.assembler⟩
  · cases p with
    | record raw =>
      refine .record (Prod.ext rfl htaken) ⟨h.dictionary, hlimit, hparted, ?_⟩
      rw [List.filterMap_append, Assembler.after_append, ← h.assembler, h.dictionary]
      rfl
    | dropped dropped =>
      refine .dropped (Prod.ext rfl htaken) ⟨h.dictionary, hlimit, hparted, ?_⟩
      rw [List.filterMap_append, Assembler.after_append, ← h.assembler]
      rfl

/-- What is handed over comes with the last of the pieces that are taken off for it. -/
def Completes (d : Dictionary) (pieces more : List Piece) (delivery : Delivery) : Prop :=
  ∃ earlier raw, more = earlier ++ [.record raw] ∧
    ((Assembler.after d .idle ((pieces ++ earlier).filterMap Piece.record?)).step d raw).2 =
      some delivery

/-- A call for what is next takes pieces off, and reports those that it drops. -/
theorem Reads.next (h : s.Reads d limit bytes pieces) :
    ∃ more, s.next.1.Reads d limit bytes (pieces ++ more) ∧
      more.filterMap Piece.droppedLength? = (reported? s.next.2).toList ∧
      ∀ delivery, s.next.2 = some (.ok delivery) → Completes d pieces more delivery := by
  induction hlength : s.intake.buffer.length using Nat.strongRecOn generalizing s pieces with
  | ind length ih =>
    cases h.takes with
    | nothing htake hreads =>
      rw [next_of_nothing htake]
      exact ⟨[], (List.append_nil pieces).symm ▸ hreads, rfl, by simp⟩
    | @dropped intake dropped htake hreads =>
      rw [next_of_tooLong htake]
      exact ⟨[.dropped dropped], hreads, rfl, by simp⟩
    | @record intake raw htake hreads =>
      have hnext := next_of_record htake
      cases hstep : (s.assembler.step s.dictionary raw).2 with
      | some delivery =>
        rw [hstep] at hnext
        rw [hnext]
        refine ⟨[.record raw], hreads, rfl, ?_⟩
        rintro _ ⟨rfl⟩
        refine ⟨[], raw, rfl, ?_⟩
        rw [List.append_nil, ← h.assembler, ← h.dictionary]
        exact hstep
      | none =>
        rw [hstep] at hnext
        have hshorter : intake.buffer.length < s.intake.buffer.length := by
          have hlt := Intake.length_take_lt (congrArg Prod.snd htake)
          rwa [htake] at hlt
        obtain ⟨more, hmore, hdropped, hcompletes⟩ := ih _ (hlength ▸ hshorter) hreads rfl
        rw [hnext]
        refine ⟨.record raw :: more, ?_, hdropped, ?_⟩
        · rwa [List.append_assoc, List.singleton_append] at hmore
        · intro delivery hdelivery
          obtain ⟨earlier, last, rfl, hlast⟩ := hcompletes delivery hdelivery
          refine ⟨.record raw :: earlier, last, rfl, ?_⟩
          rwa [List.append_assoc, List.singleton_append] at hlast

/-- Calls take pieces off a new stream, and report those that they drop. -/
theorem exists_reads_after (d : Dictionary) (limit : Nat) {calls : List Call}
    (hcalls : .finish ∉ calls) :
    ∃ pieces, ((start d limit).after calls).Reads d limit (received calls) pieces ∧
      pieces.filterMap Piece.droppedLength? =
        ((start d limit).answers calls).filterMap (reported? ·.1) := by
  induction calls using List.reverseRecOn with
  | nil => exact ⟨[], reads_start d limit, rfl⟩
  | append_singleton calls call ih =>
    rw [List.mem_append, not_or] at hcalls
    obtain ⟨pieces, hreads, hdropped⟩ := ih hcalls.1
    rw [after_append, answers_append, List.filterMap_append, ← hdropped, received,
      List.flatMap_append, ← received, List.flatMap_singleton]
    cases call with
    | push bytes =>
      refine ⟨pieces, ⟨hreads.dictionary, hreads.limit, hreads.parted.push bytes,
        hreads.assembler⟩, (List.append_nil _).symm⟩
    | next =>
      obtain ⟨more, hmore, hreported, -⟩ := hreads.next
      refine ⟨pieces ++ more, ?_, ?_⟩
      · exact (List.append_nil (received calls)).symm ▸ hmore
      · rw [List.filterMap_append, hreported]
        rfl
    | finish => exact absurd (List.mem_singleton_self _) hcalls.2

end Stream

/-! ### The segment of a message -/

namespace Segment

/-- The records make a message on their own. -/
def Makes (s : Segment) (d : Dictionary) (m : Message) : Prop :=
  Assembler.run d .idle s.records = (.idle, [.ok m])

/-- The records stand in bytes one behind the other, each of them whole. -/
structure IsPieceOf (s : Segment) (bytes : Bytes) : Prop where
  isInfix : s.records <:+: Record.cut bytes
  delimited : ∀ raw ∈ s.records, raw.getLast? = some Ascii.soh

/-- The records are those of pieces that were taken off bytes behind others. -/
structure IsTakenFrom (s : Segment) (limit : Nat) (bytes : Bytes) (before span : List Piece) :
    Prop where
  isPrefix : (before ++ span).flatMap Piece.bytes <+: bytes
  proper : ∀ p ∈ before ++ span, p.IsProper limit
  first : span.head? = some (.record s.first)
  last : span.getLast? = some (.record s.last)
  records : span.filterMap Piece.record? = s.records

end Segment

namespace Assembler

variable {d : Dictionary} {records : List Bytes} {k : Nat} {m : Message}

/-- A message that is handed over is made by the segment that it ends. -/
theorem exists_segment_of_emits (h : Emits d records k m) :
    ∃ (before : List Bytes) (s : Segment), records.take k = before ++ s.first :: s.inner ∧
      records[k]? = some s.last ∧ s.Makes d m := by
  obtain ⟨span, hsealed⟩ := exists_isSealed h
  obtain ⟨text, htext⟩ := Option.isSome_iff_exists.1 hsealed.text
  obtain ⟨r, hparse, htag, -⟩ := hsealed.ends
  have hlast : Record.tag? span.last = some Tag.checkSum :=
    Record.tag?_eq_some_iff.2 ⟨r, hparse, htag⟩
  refine ⟨span.before, ⟨span.first, span.inner, span.last, hsealed.begins, span.isInner, hlast⟩,
    span.take_eq, span.getElem?_eq, ?_⟩
  obtain ⟨hafter, result, hresult⟩ :=
    trace_assembling (d := d) (.start text span.first) span.isInner hlast
  -- The last record of the segment hands over the message, so it is the only result.
  rw [Emits, getElem?_trace, span.getElem?_eq, Option.map_some, after_take span hsealed.begins htext]
    at h
  have hemits : ((after d (assembling (.start text span.first)) span.inner).step d span.last).2 =
      some (.ok m) := Option.some.inj h
  have hsingle := hresult
  rw [trace_append, trace, trace, hemits, List.filterMap_append,
    List.filterMap_cons_some (f := id) rfl, List.filterMap_nil, List.append_eq_singleton_iff]
    at hsingle
  obtain rfl : result = .ok m := by
    rcases hsingle with ⟨-, hlast⟩ | ⟨-, hnone⟩
    · exact (List.cons.inj hlast).1.symm
    · contradiction
  rw [Segment.Makes, Segment.records, run_eq, after_cons, trace,
    step_begin hsealed.begins htext, hafter]
  exact congrArg _ hresult

end Assembler

namespace Piece

/-- Records that were taken off are lines. -/
theorem exists_lines {limit : Nat} {span : List Piece} (hproper : ∀ p ∈ span, p.IsProper limit)
    (hnone : span.filterMap droppedLength? = []) :
    ∃ lines, (∀ line ∈ lines, Ascii.soh ∉ line) ∧
      span.filterMap record? = lines.map (· ++ [Ascii.soh]) ∧
      span.flatMap bytes = Stream.unlines lines := by
  induction span with
  | nil => exact ⟨[], by simp, rfl, rfl⟩
  | cons p rest ih =>
    obtain ⟨hp, hrest⟩ := List.forall_mem_cons.1 hproper
    cases hp with
    | @record line hline hlimit =>
      obtain ⟨lines, hlines, hrecords, hbytes⟩ := ih hrest hnone
      refine ⟨line :: lines, List.forall_mem_cons.2 ⟨hline, hlines⟩, ?_, ?_⟩
      · rw [List.filterMap_cons_some (f := record?) rfl, hrecords, List.map_cons]
      · rw [List.flatMap_cons, hbytes]
        rfl
    | beyond | overflow => contradiction

end Piece

namespace Stream

variable {d : Dictionary} {limit : Nat}

/-- Bytes that end with a delimiter are lines. -/
theorem exists_unlines_of_getLast? {bytes : Bytes}
    (h : bytes = [] ∨ bytes.getLast? = some Ascii.soh) :
    ∃ lines, bytes = unlines lines ∧ ∀ line ∈ lines, Ascii.soh ∉ line := by
  obtain ⟨lines, tail, rfl, hlines, htail⟩ := exists_unlines bytes
  rcases tail.eq_nil_or_concat' with rfl | ⟨earlier, b, rfl⟩
  · exact ⟨lines, List.append_nil _, hlines⟩
  · exfalso
    rcases h with hnil | hlast
    · simp at hnil
    · rw [← List.append_assoc, List.getLast?_concat, Option.some.injEq] at hlast
      exact htail (hlast ▸ List.mem_append_right _ (List.mem_singleton_self _))

end Stream

/-- A segment that was taken off with nothing dropped among its records stands in
the bytes, if the piece before it ends with its delimiter. -/
theorem Segment.IsTakenFrom.isPieceOf {s : Segment} {limit : Nat} {bytes : Bytes}
    {before span : List Piece} (h : s.IsTakenFrom limit bytes before span)
    (hnone : span.filterMap Piece.droppedLength? = [])
    (hbefore : ∀ p, before.getLast? = some p → p.IsDelimited) : s.IsPieceOf bytes := by
  obtain ⟨rest, hrest⟩ := h.isPrefix
  obtain ⟨hproper, hspan⟩ := List.forall_mem_append.1 h.proper
  obtain ⟨lines, hlines, hrecords, hbytes⟩ := Piece.exists_lines hspan hnone
  rw [h.records] at hrecords
  have hboundary : before.flatMap Piece.bytes = [] ∨
      (before.flatMap Piece.bytes).getLast? = some Ascii.soh := by
    rcases before.eq_nil_or_concat' with rfl | ⟨earlier, p, rfl⟩
    · exact .inl rfl
    · have hlast : p.bytes.getLast? = some Ascii.soh := hbefore p List.getLast?_concat
      rw [List.flatMap_append, List.flatMap_singleton, List.getLast?_append, hlast]
      exact .inr rfl
  obtain ⟨earlier, hearlier, hwhole⟩ := Stream.exists_unlines_of_getLast? hboundary
  constructor
  · rw [← hrest, List.flatMap_append, hearlier, hbytes, List.append_assoc,
      Stream.cut_unlines hwhole, Stream.cut_unlines hlines, hrecords]
    exact ⟨_, _, (List.append_assoc _ _ _)⟩
  · intro raw hraw
    rw [hrecords, List.mem_map] at hraw
    obtain ⟨line, -, rfl⟩ := hraw
    exact List.getLast?_concat

namespace Stream

variable {d : Dictionary} {limit : Nat} {bytes : Bytes} {m : Message}

/-- A message that is handed over is made by a segment of the records that were
taken off. -/
theorem Completes.exists_segment {pieces more : List Piece}
    (h : Completes d pieces more (.ok m)) (hproper : ∀ p ∈ pieces ++ more, p.IsProper limit)
    (hfront : (pieces ++ more).flatMap Piece.bytes <+: bytes) :
    ∃ (before span : List Piece) (s : Segment), pieces ++ more = before ++ span ∧
      s.IsTakenFrom limit bytes before span ∧ s.Makes d m := by
  obtain ⟨earlier, raw, rfl, hstep⟩ := h
  have hemits : Assembler.Emits d ((pieces ++ earlier).filterMap Piece.record? ++ [raw])
      ((pieces ++ earlier).filterMap Piece.record?).length m := by
    rw [Assembler.Emits, Assembler.getElem?_trace, List.getElem?_concat_length, List.take_left,
      Option.map_some, hstep]
  obtain ⟨before, s, htake, hlast, hmakes⟩ := Assembler.exists_segment_of_emits hemits
  rw [List.take_left, List.filterMap_eq_append_iff] at htake
  obtain ⟨front, back, hpieces, -, hback⟩ := htake
  obtain ⟨aside, p, rest, rfl, haside, hp, hrest⟩ := List.filterMap_eq_cons_iff.1 hback
  rw [List.getElem?_concat_length, Option.some.injEq] at hlast
  subst hlast
  cases p with
  | dropped => contradiction
  | record first =>
    cases hp
    have hsplit : pieces ++ (earlier ++ [.record s.last]) =
        (front ++ aside) ++ .record s.first :: (rest ++ [.record s.last]) := by
      rw [← List.append_assoc, hpieces]
      simp
    rw [hsplit] at hproper hfront
    refine ⟨front ++ aside, _, s, hsplit, ⟨hfront, hproper, rfl, ?_, ?_⟩, hmakes⟩
    · rw [← List.cons_append, List.getLast?_concat]
    · rw [List.filterMap_cons_some (f := Piece.record?) rfl, List.filterMap_append, hrest]
      rfl

/-- Something is ready, and it is a message. -/
def handsOver (ready : Ready) : Option Message :=
  ready.bind fun item => item.toOption.bind (·.toOption)

theorem handsOver_eq_some_iff {ready : Ready} :
    handsOver ready = some m ↔ ready = some (.ok (.ok m)) := by
  rcases ready with _ | (fault | (fault | m'))
  · simp [handsOver]
  · simp [handsOver, Except.toOption]
  · simp [handsOver, Except.toOption]
  · simp [handsOver, Except.toOption]

/-- However a stream is called for what is next, every message that it hands over is
made by a segment of the records taken off, with the bytes that were dropped just
those that the answers reported.  The segment stands in the bytes received as it is
if nothing was dropped among its records, and if the piece before it was not dropped
without its delimiter. -/
theorem segment_of_next (d : Dictionary) (limit : Nat) (calls : List Call) (m : Message)
    (hcalls : .finish ∉ calls) (hnext : ((start d limit).after calls).next.2 = some (.ok (.ok m))) :
    ∃ (before span : List Piece) (s : Segment),
      s.IsTakenFrom limit (received calls) before span ∧ s.Makes d m ∧
      (before ++ span).filterMap Piece.droppedLength? =
        ((start d limit).answers calls).filterMap (reported? ·.1) ∧
      (span.filterMap Piece.droppedLength? = [] →
        (∀ p, before.getLast? = some p → p.IsDelimited) → s.IsPieceOf (received calls)) := by
  obtain ⟨pieces, hreads, hdropped⟩ := exists_reads_after d limit hcalls
  obtain ⟨more, hmore, hreported, hcompletes⟩ := hreads.next
  rw [hnext] at hreported
  have hfront : (pieces ++ more).flatMap Piece.bytes <+: received calls :=
    ⟨_, hmore.parted.received.symm⟩
  obtain ⟨before, span, s, hsplit, htaken, hmakes⟩ :=
    (hcompletes _ hnext).exists_segment (hmore.limit ▸ hmore.parted.proper) hfront
  refine ⟨before, span, s, htaken, hmakes, ?_, htaken.isPieceOf⟩
  rw [← hsplit, List.filterMap_append, hreported, hdropped]
  exact List.append_nil _

/-- A record beyond the limit is reported, and then a heartbeat arrives. -/
def sampleCalls : List Call :=
  [.push (Utf8.encode "58=a text that is too long\x018=FIX.4.4\x0135=0\x01"), .next,
    .push (Utf8.encode "49=A\x0156=B\x0134=7\x0110=170\x01")]

/-- The heartbeat is made by a segment of the records taken off. -/
theorem segment_of_next_sample :
    ∃ m, .finish ∉ sampleCalls ∧
      ((start .usual 20).after sampleCalls).next.2 = some (.ok (.ok m)) ∧
      ∃ (before span : List Piece) (s : Segment),
        s.IsTakenFrom 20 (received sampleCalls) before span ∧ s.Makes .usual m ∧
        (before ++ span).filterMap Piece.droppedLength? = [27] ∧
        (span.filterMap Piece.droppedLength? = [] →
          (∀ p, before.getLast? = some p → p.IsDelimited) → s.IsPieceOf (received sampleCalls)) := by
  have hcalls : .finish ∉ sampleCalls := by decide
  obtain ⟨m, hm⟩ := Option.isSome_iff_exists.1
    (show (handsOver ((start .usual 20).after sampleCalls).next.2).isSome by decide +kernel)
  have hnext := handsOver_eq_some_iff.1 hm
  have hreported :
      ((start .usual 20).answers sampleCalls).filterMap (reported? ·.1) = [27] := by
    decide +kernel
  obtain ⟨before, span, s, htaken, hmakes, hdropped, hpiece⟩ :=
    segment_of_next .usual 20 sampleCalls m hcalls hnext
  exact ⟨m, hcalls, hnext, before, span, s, htaken, hmakes, hdropped.trans hreported, hpiece⟩

/-- A text beyond the limit arrives inside a message. -/
def holedCalls : List Call :=
  [.push (Utf8.encode
    "8=FIX.4.4\x0135=0\x0149=A\x0156=B\x0134=1\x0158=0123456789012345678\x0110=164\x01"), .next]

/-- Inside another message a text beyond the limit is dropped before it is complete,
and the rest of it reads as a sender. -/
def splicedCalls : List Call :=
  holedCalls ++ [.next,
    .push (Utf8.encode "8=FIX.4.4\x0135=0\x0156=B\x0134=2\x0158=0123456789012345678"), .next,
    .push (Utf8.encode "49=EVIL\x0110=148\x01")]

/-- Messages are handed over that no piece of the bytes makes: one lacks a record,
and one holds the rest of a longer record. -/
theorem exists_made_by_no_piece :
    ∃ (d : Dictionary) (limit : Nat) (holed spliced : List Call) (m m' : Message),
      .finish ∉ spliced ∧
      ((start d limit).after holed).next.2 = some (.ok (.ok m)) ∧
      ((start d limit).after spliced).next.2 = some (.ok (.ok m')) ∧
      holed <+: spliced ∧ m'.header.senderCompId = "EVIL" ∧
      ∀ (s : Segment) (m : Message), s.Makes d m → ¬s.IsPieceOf (received spliced) := by
  obtain ⟨m, hm⟩ := Option.isSome_iff_exists.1
    (show (handsOver ((start .usual 20).after holedCalls).next.2).isSome by decide +kernel)
  obtain ⟨m', hm', hsender⟩ := Option.map_eq_some_iff.1
    (show (handsOver ((start .usual 20).after splicedCalls).next.2).map
      (·.header.senderCompId) = some "EVIL" by decide +kernel)
  refine ⟨.usual, 20, holedCalls, splicedCalls, m, m', by decide, handsOver_eq_some_iff.1 hm,
    handsOver_eq_some_iff.1 hm', List.prefix_append _ _, hsender, ?_⟩
  -- A piece of the bytes begins at one of their records and ends at another.
  have hruns : ∀ i < 14, ∀ j < 14, (Assembler.run .usual .idle
      (((Record.cut (received splicedCalls)).drop i).take j)).2.all
        (fun delivery => delivery.toOption.isNone) = true := by
    decide +kernel
  have hlength : (Record.cut (received splicedCalls)).length = 13 := by decide +kernel
  intro s made hmakes hpiece
  obtain ⟨front, back, hinfix⟩ := hpiece.isInfix
  have hrecords : s.records =
      ((Record.cut (received splicedCalls)).drop front.length).take s.records.length := by
    rw [← hinfix, List.append_assoc, List.drop_left, List.take_left]
  rw [← hinfix, List.length_append, List.length_append] at hlength
  have hnone := hruns front.length (by omega) s.records.length (by omega)
  rw [← hrecords, hmakes] at hnone
  exact Bool.false_ne_true hnone

end Stream

end FixEngine
