import FixEngine.Proofs.Wire.Pieces

/-!
# Where records begin

A record of a stream runs from the beginning of the bytes, or from behind a delimiter,
up to the next delimiter.  However the bytes are pushed and the records taken off, every
record within the limit comes off once, at its place, as soon as it has arrived.  What
else comes off as a record is the rest of a longer one, of which the bytes right before
were dropped without their delimiter.
-/

namespace FixEngine

/-- A record may begin behind the bytes. -/
def Bytes.IsBoundary (front : Bytes) : Prop :=
  front = [] ∨ front.getLast? = some Ascii.soh

/-- A record within the limit stands in the bytes, behind others that it may begin behind. -/
structure Stream.HoldsRecord (limit : Nat) (bytes front line rest : Bytes) : Prop where
  bytes_eq : bytes = front ++ ((line ++ [Ascii.soh]) ++ rest)
  isBoundary : Bytes.IsBoundary front
  fits : Stream.Fits limit line

namespace Piece

variable {limit : Nat} {p : Piece} {pieces : List Piece} {front rest : Bytes}

/-- A record was taken off right behind some bytes. -/
def TakesBehind (pieces : List Piece) (front raw : Bytes) : Prop :=
  ∃ before after, pieces = before ++ .record raw :: after ∧ before.flatMap Piece.bytes = front

theorem IsProper.ne_nil (h : p.IsProper limit) : p.bytes ≠ [] := by
  cases h with
  | record | beyond => exact List.append_ne_nil_of_right_ne_nil _ (List.cons_ne_nil _ _)
  | overflow hbytes hlimit => exact List.ne_nil_of_length_pos (Nat.zero_lt_of_lt hlimit)

theorem taken_ne_nothing (p : Piece) : p.taken ≠ .nothing := by
  cases p <;> nofun

/-- Without its delimiter a piece is dropped only beyond the limit. -/
theorem IsProper.exists_dropped (h : p.IsProper limit) (hopen : ¬p.IsDelimited) :
    ∃ lost, p = .dropped lost ∧ Ascii.soh ∉ lost ∧ limit < lost.length := by
  cases h with
  | record | beyond => exact absurd List.getLast?_concat hopen
  | overflow hbytes hlimit => exact ⟨_, rfl, hbytes, hlimit⟩

theorem IsProper.exists_fits {raw : Bytes} (h : IsProper limit (.record raw)) :
    ∃ line, Stream.Fits limit line ∧ raw = line ++ [Ascii.soh] := by
  cases h with
  | record hline hlimit => exact ⟨_, ⟨hline, hlimit⟩, rfl⟩

/-- Only the last byte of a piece may be a delimiter. -/
theorem IsProper.eq_nil_of_isBoundary (h : p.IsProper limit) (hbytes : p.bytes = front ++ rest)
    (hne : front ≠ []) (hfront : Bytes.IsBoundary front) : rest = [] := by
  have hmem : Ascii.soh ∈ front := List.mem_of_getLast? (hfront.resolve_left hne)
  have hline {line : Bytes} (hsoh : Ascii.soh ∉ line)
      (hsplit : line ++ [Ascii.soh] = front ++ rest) : rest = [] := by
    rcases rest.eq_nil_or_concat' with rfl | ⟨earlier, b, rfl⟩
    · rfl
    · rw [← List.append_assoc, List.append_singleton_inj] at hsplit
      exact absurd (hsplit.1 ▸ List.mem_append_left earlier hmem) hsoh
  cases h with
  | record hsoh | beyond hsoh => exact hline hsoh hbytes
  | @overflow lost hsoh =>
    have hlost : lost = front ++ rest := hbytes
    rw [hlost] at hsoh
    exact absurd (List.mem_append_left rest hmem) hsoh

/-- What comes off where a record within the limit begins is that record. -/
theorem IsProper.eq_record {line later : Bytes} (h : p.IsProper limit)
    (hfits : Stream.Fits limit line)
    (hbytes : p.bytes ++ rest = (line ++ [Ascii.soh]) ++ later) :
    p = .record (line ++ [Ascii.soh]) := by
  rw [List.append_assoc, List.singleton_append] at hbytes
  have hsame {line' : Bytes} (hsoh : Ascii.soh ∉ line')
      (hsplit : (line' ++ [Ascii.soh]) ++ rest = line ++ Ascii.soh :: later) : line' = line := by
    rw [List.append_assoc, List.singleton_append] at hsplit
    have hcut := congrArg Record.cut hsplit
    rw [Record.cut_append_soh hsoh, Record.cut_append_soh hfits.soh_not_mem] at hcut
    exact (List.append_singleton_inj.1 (List.cons.inj hcut).1).1
  cases h with
  | record hsoh => rw [hsame hsoh hbytes]
  | beyond hsoh hlimit =>
    rw [hsame hsoh hbytes] at hlimit
    exact absurd hfits.length (Nat.not_le_of_lt hlimit)
  | @overflow lost hsoh hlimit =>
    have hlength := hfits.length
    exfalso
    have hlost : lost ++ rest = line ++ Ascii.soh :: later := hbytes
    rcases List.append_eq_append_iff.1 hlost with ⟨more, rfl, -⟩ | ⟨more, rfl, hmore⟩
    · rw [List.length_append] at hlength
      omega
    · cases more with
      | nil =>
        rw [List.append_nil] at hlimit
        omega
      | cons b more =>
        rw [(List.cons.inj hmore).1] at hsoh
        exact hsoh (List.mem_append_right line List.mem_cons_self)

/-- Behind pieces a record may begin if the last of them has its delimiter. -/
theorem isBoundary_iff (hproper : ∀ p ∈ pieces, p.IsProper limit) :
    Bytes.IsBoundary (pieces.flatMap bytes) ↔
      ∀ p, pieces.getLast? = some p → p.IsDelimited := by
  rcases pieces.eq_nil_or_concat' with rfl | ⟨earlier, last, rfl⟩
  · exact ⟨nofun, fun _ => .inl rfl⟩
  · have hne := (hproper last (List.mem_append_right _ (List.mem_singleton_self _))).ne_nil
    obtain ⟨front, b, hlast⟩ := List.eq_nil_or_concat' last.bytes |>.resolve_left hne
    rw [Bytes.IsBoundary, List.flatMap_append, List.flatMap_singleton, List.getLast?_concat, hlast,
      ← List.append_assoc, List.getLast?_concat]
    simp [IsDelimited, hlast]

/-- A record within the limit has been taken off behind the bytes before it, or it waits. -/
theorem takesBehind_or_waits {waiting line later : Bytes}
    (hproper : ∀ p ∈ pieces, p.IsProper limit)
    (hrecord : Stream.HoldsRecord limit (pieces.flatMap bytes ++ waiting) front line later) :
    TakesBehind pieces front (line ++ [Ascii.soh]) ∨
      ∃ between, front = pieces.flatMap bytes ++ between ∧
        waiting = between ++ ((line ++ [Ascii.soh]) ++ later) := by
  induction pieces generalizing front with
  | nil => exact .inr ⟨front, rfl, hrecord.bytes_eq⟩
  | cons p more ih =>
    rw [List.forall_mem_cons] at hproper
    obtain ⟨hp, hmore⟩ := hproper
    have hsplit := hrecord.bytes_eq
    rw [List.flatMap_cons, List.append_assoc] at hsplit
    rcases List.append_eq_append_iff.1 hsplit with ⟨front', rfl, hrest⟩ | ⟨inside, hbytes, hrest⟩
    · -- The record begins behind the piece.
      have hboundary : Bytes.IsBoundary front' := by
        rcases front'.eq_nil_or_concat' with rfl | ⟨earlier, b, rfl⟩
        · exact .inl rfl
        · have hlast := hrecord.isBoundary.resolve_left (by simp)
          rw [← List.append_assoc, List.getLast?_concat] at hlast
          exact .inr (List.getLast?_concat.trans hlast)
      rcases ih hmore ⟨hrest, hboundary, hrecord.fits⟩ with
        ⟨before, after, rfl, rfl⟩ | ⟨between, rfl, hwaiting⟩
      · exact .inl ⟨p :: before, after, rfl, List.flatMap_cons⟩
      · exact .inr ⟨between, by rw [List.flatMap_cons, List.append_assoc], hwaiting⟩
    · by_cases hfront : front = []
      · -- The record begins with the piece.
        subst hfront
        rw [List.nil_append] at hsplit
        exact .inl ⟨[], more, by rw [hp.eq_record hrecord.fits hsplit]; rfl, rfl⟩
      · -- No record begins inside the piece, so this one begins right behind it.
        obtain rfl := hp.eq_nil_of_isBoundary hbytes hfront hrecord.isBoundary
        rw [List.append_nil] at hbytes
        have hnext : Stream.HoldsRecord limit (more.flatMap bytes ++ waiting) [] line later :=
          ⟨hrest.symm, .inl rfl, hrecord.fits⟩
        rcases ih hmore hnext with ⟨before, after, rfl, hnil⟩ | ⟨between, hnil, hwaiting⟩
        · refine .inl ⟨p :: before, after, rfl, ?_⟩
          rw [List.flatMap_cons, hnil, hbytes, List.append_nil]
        · refine .inr ⟨between, ?_, hwaiting⟩
          rw [List.flatMap_cons, List.append_assoc, ← hnil, hbytes, List.append_nil]

end Piece

namespace Intake

/-! ### Calls -/

/-- What the owner of a buffer does with it. -/
inductive Call where
  | push (bytes : Bytes)
  | take
  deriving DecidableEq

/-- The bytes that a call adds. -/
def Call.pushed : Call → Bytes
  | push bytes => bytes
  | take => []

/-- The buffer after a call, and what the call finds at its front. -/
def perform (intake : Intake) : Call → Intake × Taken
  | .push bytes => (intake.push bytes, .nothing)
  | .take => intake.take

def after (intake : Intake) (calls : List Call) : Intake :=
  calls.foldl (fun intake call => (intake.perform call).1) intake

/-- What calls find, one after another. -/
def found (intake : Intake) : List Call → List Taken
  | [] => []
  | call :: rest => (intake.perform call).2 :: (intake.perform call).1.found rest

/-- The bytes that calls add. -/
def received (calls : List Call) : Bytes := calls.flatMap Call.pushed

theorem after_append (intake : Intake) (left right : List Call) :
    intake.after (left ++ right) = (intake.after left).after right :=
  List.foldl_append

theorem found_append (intake : Intake) (left right : List Call) :
    intake.found (left ++ right) = intake.found left ++ (intake.after left).found right := by
  induction left generalizing intake with
  | nil => rfl
  | cons call rest ih =>
    rw [List.cons_append, found, ih, found]
    rfl

variable {limit : Nat} {calls : List Call}

/-- When nothing is found at the front, no delimiter waits. -/
theorem Parted.soh_not_mem {intake : Intake} {received : Bytes} {pieces : List Piece}
    (h : intake.Parted received pieces) (hnothing : intake.take.2 = .nothing) :
    Ascii.soh ∉ intake.buffer := by
  obtain ⟨lines, tail, hbuffer, hlines, htail⟩ := Stream.exists_unlines intake.buffer
  cases lines with
  | nil =>
    rw [hbuffer]
    exact htail
  | cons line more =>
    exfalso
    have hline := (List.forall_mem_cons.1 hlines).1
    have hfirst : intake.buffer = line ++ Ascii.soh :: (Stream.unlines more ++ tail) := by
      rw [hbuffer, Stream.unlines, List.flatMap_cons, List.append_assoc, List.append_assoc]
      rfl
    by_cases hlimit : line.length + 1 ≤ intake.limit
    · rw [take_line h.scanned hline hlimit hfirst] at hnothing
      contradiction
    · rw [take_beyond h.scanned hline (Nat.lt_of_not_le hlimit) hfirst] at hnothing
      contradiction

/-- What calls find are the pieces that they take off the bytes received. -/
theorem exists_parted_after (limit : Nat) (calls : List Call) :
    ∃ pieces, ((empty limit).after calls).Parted (received calls) pieces ∧
      ((empty limit).after calls).limit = limit ∧
      ((empty limit).found calls).filter (· ≠ .nothing) = pieces.map Piece.taken := by
  induction calls using List.reverseRecOn with
  | nil =>
    exact ⟨[], ⟨rfl, List.forall_mem_nil _, isScanned_of_zero rfl, Nat.zero_le _⟩, rfl, rfl⟩
  | append_singleton calls call ih =>
    obtain ⟨pieces, hparted, hlimit, hfound⟩ := ih
    rw [after_append, found_append, List.filter_append, hfound, received, List.flatMap_append,
      ← received, List.flatMap_singleton]
    cases call with
    | push bytes =>
      refine ⟨pieces, hparted.push bytes, hlimit, ?_⟩
      exact List.append_nil _
    | take =>
      have hpushed : received calls ++ Call.pushed .take = received calls := List.append_nil _
      have hkept : ((empty limit).after calls).take.1.limit = limit :=
        (limit_take _).trans hlimit
      have hfront : ((empty limit).after calls).found [.take] =
        [((empty limit).after calls).take.2] := rfl
      rw [hpushed, hfront]
      rcases hparted.take with ⟨hnothing, hsame⟩ | ⟨p, htaken, hmore⟩
      · refine ⟨pieces, hsame, hkept, ?_⟩
        rw [hnothing]
        exact List.append_nil _
      · refine ⟨pieces ++ [p], hmore, hkept, ?_⟩
        rw [htaken, List.filter_cons_of_pos (by simpa using p.taken_ne_nothing), List.map_append]
        rfl

/-- Bytes received are pieces that were taken off, and bytes that wait.  A piece is a
record within the limit, or it was dropped.  Every record within the limit that the bytes
hold came off right where it begins, or it waits. -/
structure Frames (limit : Nat) (received waiting : Bytes) (pieces : List Piece) : Prop where
  received_eq : received = pieces.flatMap Piece.bytes ++ waiting
  fits : ∀ raw, .record raw ∈ pieces → ∃ line, Stream.Fits limit line ∧ raw = line ++ [Ascii.soh]
  /-- A piece begins where a record may begin, unless the one before it lacks its delimiter. -/
  begins : ∀ before p after, pieces = before ++ p :: after →
    (Bytes.IsBoundary (before.flatMap Piece.bytes) ↔
      ∀ q, before.getLast? = some q → q.IsDelimited)
  /-- Only bytes that were dropped beyond the limit lack their delimiter. -/
  dropped : ∀ p ∈ pieces, ¬p.IsDelimited →
    ∃ lost, p = .dropped lost ∧ Ascii.soh ∉ lost ∧ limit < lost.length
  complete : ∀ front line rest, Stream.HoldsRecord limit received front line rest →
    Piece.TakesBehind pieces front (line ++ [Ascii.soh]) ∨
      ∃ between, front = pieces.flatMap Piece.bytes ++ between ∧
        waiting = between ++ ((line ++ [Ascii.soh]) ++ rest)

theorem Parted.frames {intake : Intake} {received : Bytes} {pieces : List Piece}
    (h : intake.Parted received pieces) :
    Frames intake.limit received intake.buffer pieces where
  received_eq := h.received
  fits raw hraw := (h.proper (.record raw) hraw).exists_fits
  begins := by
    intro before p after hsplit
    have hproper := h.proper
    rw [hsplit, List.forall_mem_append] at hproper
    exact Piece.isBoundary_iff hproper.1
  dropped p hp := (h.proper p hp).exists_dropped
  complete := by
    intro front line rest hrecord
    rw [h.received] at hrecord
    exact Piece.takesBehind_or_waits h.proper hrecord

/-- However bytes are pushed and records taken off, what is found are pieces of the bytes
received, one behind the other.  Each record found begins where a record may begin, unless
the bytes right before it were dropped without their delimiter.  Each record within the
limit is found at its place, at the latest when nothing more is found. -/
theorem records_framed (limit : Nat) (calls : List Call) :
    ∃ pieces : List Piece,
      ((empty limit).found calls).filter (· ≠ .nothing) = pieces.map Piece.taken ∧
      Frames limit (received calls) ((empty limit).after calls).buffer pieces ∧
      (((empty limit).after calls).take.2 = .nothing →
        ∀ front line rest, Stream.HoldsRecord limit (received calls) front line rest →
          Piece.TakesBehind pieces front (line ++ [Ascii.soh])) := by
  obtain ⟨pieces, hparted, hlimit, hfound⟩ := exists_parted_after limit calls
  have hframes := hparted.frames
  rw [hlimit] at hframes
  refine ⟨pieces, hfound, hframes, ?_⟩
  intro hnothing front line rest hrecord
  apply (hframes.complete front line rest hrecord).resolve_right
  rintro ⟨between, -, hwaiting⟩
  apply hparted.soh_not_mem hnothing
  rw [hwaiting]
  simp

/-- A text beyond the limit arrives in two parts, and is looked for in between. -/
def cutShortCalls : List Call :=
  [.push (Utf8.encode "58=abcdefghij"), .take, .push (Utf8.encode "35=0\x01"), .take]

/-- A record is found that is the rest of a longer one. -/
theorem exists_record_cut_short :
    ∃ limit calls raw, .record raw ∈ (empty limit).found calls ∧
      raw ∉ Record.cut (received calls) := by
  refine ⟨8, cutShortCalls, Utf8.encode "35=0\x01", ?_, ?_⟩
  · decide +kernel
  · decide +kernel

end Intake

end FixEngine
