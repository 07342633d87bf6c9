import FixEngine.Proofs.Wire.Streaming

/-!
# Bytes that arrive in pieces

However the bytes of a stream are cut into the pieces in which they arrive, taking
up what is ready after each piece gives what the bytes give as a whole, and leaves
the bytes after the last delimiter.  This holds as long as no record is beyond the
limit.
-/

namespace FixEngine.Stream

/-- Takes in pieces of bytes one after another, and after each of them all that is
ready. -/
def feed (s : Stream) : List Bytes → Stream × List (Except StreamFault Delivery)
  | [] => (s, [])
  | piece :: rest =>
    let (next, items) := (s.push piece).drain
    let (last, more) := next.feed rest
    (last, items ++ more)

/-- The stream after lines have been taken up that leave a tail. -/
def fed (s : Stream) (lines : List Bytes) (tail : Bytes) : Stream :=
  { s with
    intake := ⟨s.intake.limit, tail.length, tail⟩
    assembler := Assembler.after s.dictionary s.assembler (lines.map (· ++ [Ascii.soh])) }

/-- What lines hand over. -/
def itemsOf (s : Stream) (lines : List Bytes) : List (Except StreamFault Delivery) :=
  (Assembler.run s.dictionary s.assembler (lines.map (· ++ [Ascii.soh]))).2.map .ok

theorem fed_append (s : Stream) (left right : List Bytes) (tail rest : Bytes) :
    (s.fed left tail).fed right rest = s.fed (left ++ right) rest := by
  simp only [fed, List.map_append, Assembler.after_append]

theorem itemsOf_append (s : Stream) (left right : List Bytes) (tail : Bytes) :
    s.itemsOf left ++ (s.fed left tail).itemsOf right = s.itemsOf (left ++ right) := by
  simp only [itemsOf, fed, Assembler.run_eq, List.map_append, Assembler.trace_append,
    List.filterMap_append]

/-- A tail waits, all of it scanned. -/
structure Waits (s : Stream) : Prop where
  soh_not_mem : Ascii.soh ∉ s.intake.buffer
  scanned : s.intake.scanned = s.intake.buffer.length

theorem Waits.fed_nil {s : Stream} (h : s.Waits) : s.fed [] s.intake.buffer = s := by
  obtain ⟨d, ⟨limit, scanned, buffer⟩, assembler⟩ := s
  obtain rfl : scanned = buffer.length := h.scanned
  rfl

/-- A piece completes lines, and the tail that it leaves is within the limit. -/
theorem Waits.holds {s : Stream} {piece rest : Bytes} (h : s.Waits)
    (hfits : ∀ raw ∈ Record.cut (s.intake.buffer ++ (piece ++ rest)), raw.length ≤ s.intake.limit) :
    ∃ lines tail, s.intake.buffer ++ piece = unlines lines ++ tail ∧
      (∀ line ∈ lines, Ascii.soh ∉ line) ∧ (s.push piece).Holds lines tail ∧
      ∀ raw ∈ Record.cut (tail ++ rest), raw.length ≤ s.intake.limit := by
  obtain ⟨lines, tail, hbytes, hlines, htail⟩ := exists_unlines (s.intake.buffer ++ piece)
  rw [← List.append_assoc, hbytes, List.append_assoc, cut_unlines hlines,
    List.forall_mem_append] at hfits
  obtain ⟨hwhole, hopen⟩ := hfits
  refine ⟨lines, tail, hbytes, hlines, ⟨hbytes, ?_, ?_, htail, ?_⟩, hopen⟩
  · have htake : (s.intake.buffer ++ piece).take s.intake.scanned = s.intake.buffer := by
      rw [h.scanned, List.take_left]
    rw [Intake.IsScanned]
    exact htake.symm ▸ h.soh_not_mem
  · intro line hline
    refine ⟨hlines line hline, ?_⟩
    have hlength := hwhole (line ++ [Ascii.soh]) (List.mem_map_of_mem hline)
    rwa [List.length_append, List.length_singleton] at hlength
  · -- The tail is part of the record that the rest of the bytes goes on with.
    by_cases hne : tail = []
    · rw [hne]
      exact Nat.zero_le _
    · obtain ⟨first, more, hcut⟩ := exists_cut_tail htail hne rest
      have hfirst := hopen (tail ++ first) (hcut ▸ List.mem_cons_self)
      rw [List.length_append] at hfirst
      exact Nat.le_of_add_right_le hfirst

/-- Pieces give their lines, whatever the lines are cut by, and leave their tail. -/
theorem exists_feed_eq {s : Stream} (h : s.Waits) (pieces : List Bytes)
    (hfits : ∀ raw ∈ Record.cut (s.intake.buffer ++ pieces.flatten),
      raw.length ≤ s.intake.limit) :
    ∃ lines tail, s.intake.buffer ++ pieces.flatten = unlines lines ++ tail ∧
      (∀ line ∈ lines, Ascii.soh ∉ line) ∧ Ascii.soh ∉ tail ∧
      s.feed pieces = (s.fed lines tail, s.itemsOf lines) := by
  induction pieces generalizing s with
  | nil =>
    refine ⟨[], s.intake.buffer, List.append_nil _, by simp, h.soh_not_mem, ?_⟩
    rw [h.fed_nil]
    rfl
  | cons piece rest ih =>
    rw [List.flatten_cons] at hfits ⊢
    obtain ⟨lines, tail, hbytes, hlines, hholds, hopen⟩ := h.holds hfits
    have hdrain : (s.push piece).drain = (s.fed lines tail, s.itemsOf lines) := by
      simp only [drain_eq hholds, fed, itemsOf, Assembler.run_eq]
      rfl
    have hwaits : (s.fed lines tail).Waits := ⟨hholds.soh_not_mem, rfl⟩
    obtain ⟨more, last, hrest, hmore, hlast, hfeed⟩ := ih hwaits hopen
    refine ⟨lines ++ more, last, ?_, List.forall_mem_append.2 ⟨hlines, hmore⟩, hlast, ?_⟩
    · have hwaiting : tail ++ rest.flatten = unlines more ++ last := hrest
      rw [← List.append_assoc, hbytes, List.append_assoc, hwaiting, unlines_append,
        List.append_assoc]
    · rw [feed, hdrain]
      simp only [hfeed, fed_append, itemsOf_append]

/-- Bytes within the limit that arrive in pieces give what they give as a whole up
to their last delimiter, and nothing but messages and faults of messages.  The
bytes after the last delimiter stay behind. -/
theorem feed_eq_decodeAll (d : Dictionary) (limit : Nat) (bytes : Bytes) (pieces : List Bytes)
    (hpieces : pieces.flatten = bytes) (hfits : ∀ raw ∈ Record.cut bytes, raw.length ≤ limit) :
    ((start d limit).feed pieces).2 =
        (Message.decodeAll d (bytes.rdropWhile (· ≠ Ascii.soh))).map .ok ∧
      ((start d limit).feed pieces).1.intake.buffer = bytes.rtakeWhile (· ≠ Ascii.soh) := by
  subst hpieces
  have hwaits : (start d limit).Waits := ⟨List.not_mem_nil, rfl⟩
  obtain ⟨lines, tail, hbytes, hlines, htail, hfeed⟩ := exists_feed_eq hwaits pieces hfits
  have hflatten : pieces.flatten = unlines lines ++ tail := hbytes
  have hcut : Record.cut (unlines lines) = lines.map (· ++ [Ascii.soh]) := by
    have hwhole := cut_unlines hlines []
    rwa [List.append_nil, Record.cut, List.append_nil] at hwhole
  constructor
  · rw [hfeed, hflatten, rdropWhile_unlines lines htail, Message.decodeAll, Assembler.runBytes,
      hcut]
    rfl
  · rw [hfeed, hflatten, rtakeWhile_unlines lines htail]
    rfl

/-- A heartbeat and the beginning of a second message. -/
def sampleBytes : Bytes :=
  Utf8.encode "8=FIX.4.4\x0135=0\x0149=A\x0156=B\x0134=7\x0110=170\x018=FI"

/-- Pieces that are cut inside a tag, inside a value and before a delimiter. -/
def samplePieces : List Bytes :=
  ["8=FIX.4.4\x013", "5=0", "\x0149=", "", "A\x0156=B\x0134=7\x0110=170", "\x018=FI"].map
    Utf8.encode

/-- The heartbeat comes out, and the beginning of the second message waits. -/
theorem feed_eq_decodeAll_sample :
    samplePieces.flatten = sampleBytes ∧ (∀ raw ∈ Record.cut sampleBytes, raw.length ≤ 10) ∧
      (Message.decodeAll .usual (sampleBytes.rdropWhile (· ≠ Ascii.soh))).map
        (fun delivery => delivery.toOption.bind (·.header.msgSeqNum)) = [some 7] ∧
      ((start .usual 10).feed samplePieces).2 =
        (Message.decodeAll .usual (sampleBytes.rdropWhile (· ≠ Ascii.soh))).map .ok ∧
      ((start .usual 10).feed samplePieces).1.intake.buffer = Utf8.encode "8=FI" := by
  have hpieces : samplePieces.flatten = sampleBytes := by decide +kernel
  have hfits : ∀ raw ∈ Record.cut sampleBytes, raw.length ≤ 10 := by decide +kernel
  have hmessage : (Message.decodeAll .usual (sampleBytes.rdropWhile (· ≠ Ascii.soh))).map
      (fun delivery => delivery.toOption.bind (·.header.msgSeqNum)) = [some 7] := by
    decide +kernel
  obtain ⟨hitems, hbuffer⟩ := feed_eq_decodeAll .usual 10 sampleBytes samplePieces hpieces hfits
  have htail : sampleBytes.rtakeWhile (· ≠ Ascii.soh) = Utf8.encode "8=FI" := by decide +kernel
  exact ⟨hpieces, hfits, hmessage, hitems, hbuffer.trans htail⟩

end FixEngine.Stream
