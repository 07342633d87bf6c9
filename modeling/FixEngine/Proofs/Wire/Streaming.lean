import FixEngine.Proofs.Wire.Trace
import FixEngine.Wire.Stream
import Mathlib.Data.List.DropRight

/-!
# Records that arrive on a stream

A buffer is looked at as the lines in front, each with the delimiter after it, and
a tail without one.  As long as all of them are within the limit, draining the
stream takes up the lines one after another, as the assembler does on its own, and
leaves the tail behind.
-/

namespace FixEngine

namespace Intake

variable {intake : Intake} {line rest : Bytes}

/-- The bytes that count as scanned hold no delimiter. -/
def IsScanned (intake : Intake) : Prop := Ascii.soh ∉ intake.buffer.take intake.scanned

theorem isScanned_of_zero (h : intake.scanned = 0) : intake.IsScanned := by
  rw [IsScanned, h, List.take_zero]
  exact List.not_mem_nil

/-- The first record ends where the first line does. -/
theorem recordEnd?_line (hscanned : intake.IsScanned) (hline : Ascii.soh ∉ line)
    (hbuffer : intake.buffer = line ++ Ascii.soh :: rest) :
    intake.recordEnd? = some (line.length + 1) := by
  -- If more than the line were scanned, the delimiter after it would be among it.
  have hle : intake.scanned ≤ line.length := by
    apply Nat.le_of_not_lt
    intro hlt
    apply hscanned
    rw [hbuffer, List.take_append, List.mem_append]
    obtain ⟨k, hk⟩ : ∃ k, intake.scanned - line.length = k + 1 :=
      ⟨intake.scanned - line.length - 1, by omega⟩
    rw [hk, List.take_succ_cons]
    exact .inr List.mem_cons_self
  have hlength : intake.buffer.length = line.length + rest.length + 1 := by
    rw [hbuffer, List.length_append, List.length_cons, Nat.add_assoc]
  have hstart : min intake.scanned intake.buffer.length = intake.scanned :=
    Nat.min_eq_left (by omega)
  have hnone : (line.drop intake.scanned).findIdx? (· = Ascii.soh) = none := by
    rw [List.findIdx?_eq_none_iff]
    intro b hb
    rw [decide_eq_false_iff_not]
    rintro rfl
    exact hline (List.mem_of_mem_drop hb)
  have hfound : (intake.buffer.drop intake.scanned).findIdx? (· = Ascii.soh) =
      some (line.length - intake.scanned) := by
    have hfirst : (Ascii.soh :: rest).findIdx? (· = Ascii.soh) = some 0 :=
      List.findIdx?_cons.trans (if_pos (decide_eq_true rfl))
    rw [hbuffer, List.drop_append_of_le_length hle, List.findIdx?_append, hnone, hfirst]
    simp
  simp only [recordEnd?, hstart, hfound, Option.map_some, Option.some.injEq]
  omega

/-- A line within the limit is taken off the front. -/
theorem take_line (hscanned : intake.IsScanned) (hline : Ascii.soh ∉ line)
    (hlimit : line.length + 1 ≤ intake.limit)
    (hbuffer : intake.buffer = line ++ Ascii.soh :: rest) :
    intake.take =
      ({ intake with scanned := 0, buffer := rest }, .record (line ++ [Ascii.soh])) := by
  have hsplit : line ++ Ascii.soh :: rest = (line ++ [Ascii.soh]) ++ rest := by
    rw [List.append_assoc, List.singleton_append]
  have hlength : line.length + 1 = (line ++ [Ascii.soh]).length := by
    rw [List.length_append, List.length_singleton]
  simp only [take, recordEnd?_line hscanned hline hbuffer]
  rw [if_neg (Nat.not_lt.2 hlimit), hbuffer, hsplit, hlength, List.drop_left, List.take_left]

/-- A line beyond the limit is dropped with its delimiter. -/
theorem take_beyond (hscanned : intake.IsScanned) (hline : Ascii.soh ∉ line)
    (hlimit : intake.limit < line.length + 1)
    (hbuffer : intake.buffer = line ++ Ascii.soh :: rest) :
    intake.take =
      ({ intake with scanned := 0, buffer := rest }, .tooLong (line.length + 1)) := by
  have hsplit : line ++ Ascii.soh :: rest = (line ++ [Ascii.soh]) ++ rest := by
    rw [List.append_assoc, List.singleton_append]
  have hlength : line.length + 1 = (line ++ [Ascii.soh]).length := by
    rw [List.length_append, List.length_singleton]
  simp only [take, recordEnd?_line hscanned hline hbuffer, if_pos hlimit]
  rw [hbuffer, hsplit, hlength, List.drop_left]

/-- No record ends where there is no delimiter. -/
theorem recordEnd?_tail (htail : Ascii.soh ∉ intake.buffer) : intake.recordEnd? = none := by
  rw [recordEnd?, Option.map_eq_none_iff, List.findIdx?_eq_none_iff]
  intro b hb
  rw [decide_eq_false_iff_not]
  rintro rfl
  exact htail (List.mem_of_mem_drop hb)

/-- A tail within the limit waits for more bytes. -/
theorem take_tail (htail : Ascii.soh ∉ intake.buffer)
    (hlimit : intake.buffer.length ≤ intake.limit) :
    intake.take = ({ intake with scanned := intake.buffer.length }, .nothing) := by
  simp only [take, recordEnd?_tail htail]
  rw [if_neg (Nat.not_lt.2 hlimit)]

/-- A tail beyond the limit is dropped before the rest of its record is there. -/
theorem take_overflow (htail : Ascii.soh ∉ intake.buffer)
    (hlimit : intake.limit < intake.buffer.length) :
    intake.take =
      ({ intake with scanned := 0, buffer := [] }, .tooLong intake.buffer.length) := by
  simp only [take, recordEnd?_tail htail, if_pos hlimit]

end Intake

namespace Stream

variable {s s' : Stream}

/-- Lines with the delimiter after each of them. -/
def unlines (lines : List Bytes) : Bytes := lines.flatMap (· ++ [Ascii.soh])

theorem unlines_append (left right : List Bytes) :
    unlines (left ++ right) = unlines left ++ unlines right :=
  List.flatMap_append

/-- Bytes are lines, and a tail without a delimiter. -/
theorem exists_unlines (bytes : Bytes) :
    ∃ lines tail, bytes = unlines lines ++ tail ∧ (∀ line ∈ lines, Ascii.soh ∉ line) ∧
      Ascii.soh ∉ tail := by
  induction bytes with
  | nil => exact ⟨[], [], rfl, by simp, List.not_mem_nil⟩
  | cons b rest ih =>
    obtain ⟨lines, tail, rfl, hlines, htail⟩ := ih
    by_cases hb : b = Ascii.soh
    · subst hb
      refine ⟨[] :: lines, tail, rfl, ?_, htail⟩
      exact List.forall_mem_cons.2 ⟨List.not_mem_nil, hlines⟩
    · -- The byte begins the first line, or the tail if there is no line.
      cases lines with
      | nil => exact ⟨[], b :: tail, rfl, hlines, by simp [Ne.symm hb, htail]⟩
      | cons line more =>
        obtain ⟨hline, hmore⟩ := List.forall_mem_cons.1 hlines
        refine ⟨(b :: line) :: more, tail, rfl, ?_, htail⟩
        exact List.forall_mem_cons.2 ⟨by simp [Ne.symm hb, hline], hmore⟩

/-- Bytes are cut where their lines end. -/
theorem cut_unlines {lines : List Bytes} (hlines : ∀ line ∈ lines, Ascii.soh ∉ line)
    (rest : Bytes) :
    Record.cut (unlines lines ++ rest) = lines.map (· ++ [Ascii.soh]) ++ Record.cut rest := by
  induction lines with
  | nil => rfl
  | cons line more ih =>
    obtain ⟨hline, hmore⟩ := List.forall_mem_cons.1 hlines
    have hsplit : unlines (line :: more) ++ rest = line ++ Ascii.soh :: (unlines more ++ rest) := by
      rw [unlines, List.flatMap_cons, List.append_assoc, List.append_assoc]
      rfl
    rw [hsplit, Record.cut_append_soh hline, ih hmore, List.map_cons, List.cons_append]

/-- A tail stands at the front of the record that it belongs to. -/
theorem exists_cut_tail {tail : Bytes} (htail : Ascii.soh ∉ tail) (hne : tail ≠ [])
    (rest : Bytes) :
    ∃ first more, Record.cut (tail ++ rest) = (tail ++ first) :: more := by
  induction tail with
  | nil => contradiction
  | cons b tail ih =>
    obtain ⟨hb, htail⟩ : Ascii.soh ≠ b ∧ Ascii.soh ∉ tail := by
      simpa only [List.mem_cons, not_or] using htail
    rw [List.cons_append, Record.cut, if_neg (Ne.symm hb)]
    cases tail with
    | nil =>
      cases Record.cut ([] ++ rest) with
      | nil => exact ⟨[], [], rfl⟩
      | cons first more => exact ⟨first, more, rfl⟩
    | cons b' tail' =>
      obtain ⟨first, more, hcut⟩ := ih htail (List.cons_ne_nil b' tail')
      exact ⟨first, more, by rw [hcut]; rfl⟩

/-- Bytes up to their last delimiter are their lines. -/
theorem rdropWhile_unlines (lines : List Bytes) {tail : Bytes} (htail : Ascii.soh ∉ tail) :
    (unlines lines ++ tail).rdropWhile (· ≠ Ascii.soh) = unlines lines := by
  have hall : ∀ b ∈ tail.reverse, decide (b ≠ Ascii.soh) = true := by
    intro b hb
    rw [decide_eq_true_eq]
    rintro rfl
    exact htail (List.mem_reverse.1 hb)
  rw [List.rdropWhile, List.reverse_append, List.dropWhile_append_of_pos hall]
  rcases lines.eq_nil_or_concat' with rfl | ⟨earlier, last, rfl⟩
  · rfl
  · have hreverse : (unlines (earlier ++ [last])).reverse =
        Ascii.soh :: (unlines earlier ++ last).reverse := by
      simp [unlines]
    rw [hreverse, List.dropWhile_cons_of_neg (by simp), ← hreverse, List.reverse_reverse]

/-- Bytes after their last delimiter are their tail. -/
theorem rtakeWhile_unlines (lines : List Bytes) {tail : Bytes} (htail : Ascii.soh ∉ tail) :
    (unlines lines ++ tail).rtakeWhile (· ≠ Ascii.soh) = tail := by
  have hsplit : (unlines lines ++ tail).rdropWhile (· ≠ Ascii.soh) ++
      (unlines lines ++ tail).rtakeWhile (· ≠ Ascii.soh) = unlines lines ++ tail :=
    List.rdropWhile_append_rtakeWhile
  rw [rdropWhile_unlines lines htail] at hsplit
  exact List.append_cancel_left hsplit

theorem render_eq_unlines (records : List Record) :
    Record.render records = unlines (records.map Record.head) := by
  rw [unlines, List.flatMap_map]
  exact congrArg records.flatMap (funext Record.toBytes_eq)

/-- A line is within the limit with the delimiter after it. -/
structure Fits (limit : Nat) (line : Bytes) : Prop where
  soh_not_mem : Ascii.soh ∉ line
  length : line.length + 1 ≤ limit

theorem drain_of_none (h : s.next.2 = none) : s.drain = (s.next.1, []) := by
  rw [drain]
  split
  · rfl
  · next hsome =>
    rw [h] at hsome
    contradiction

theorem drain_of_some {item : Except StreamFault Delivery} (h : s.next.2 = some item) :
    s.drain = (s.next.1.drain.1, item :: s.next.1.drain.2) := by
  rw [drain]
  split
  · next hnone =>
    rw [h] at hnone
    contradiction
  · next found hsome =>
    cases hsome.symm.trans h
    rfl

/-- Draining a stream depends only on what comes next. -/
theorem drain_congr (h : s.next = s'.next) : s.drain = s'.drain := by
  cases hnext : s'.next.2 with
  | none => rw [drain_of_none hnext, drain_of_none (h ▸ hnext), h]
  | some item => rw [drain_of_some hnext, drain_of_some (h ▸ hnext), h]

theorem next_of_nothing {intake : Intake} (htake : s.intake.take = (intake, .nothing)) :
    s.next = ({ s with intake }, none) := by
  rw [next]
  split
  · rw [htake]
  all_goals next hother =>
    rw [htake] at hother
    contradiction

theorem next_of_tooLong {intake : Intake} {length : Nat}
    (htake : s.intake.take = (intake, .tooLong length)) :
    s.next = ({ s with intake }, some (.error (.recordTooLong length s.intake.limit))) := by
  rw [next]
  split
  · next hnothing =>
    rw [htake] at hnothing
    contradiction
  · next found hlong =>
    rw [htake] at hlong
    cases hlong
    rw [htake]
  · next raw hraw =>
    rw [htake] at hraw
    contradiction

/-- A record that completes nothing is not handed over, and the search goes on
behind it. -/
theorem next_of_record {intake : Intake} {raw : Bytes}
    (htake : s.intake.take = (intake, .record raw)) :
    s.next =
      match (s.assembler.step s.dictionary raw).2 with
      | some delivery =>
        ({ s with intake, assembler := (s.assembler.step s.dictionary raw).1 },
          some (.ok delivery))
      | none =>
        ({ s with intake, assembler := (s.assembler.step s.dictionary raw).1 } : Stream).next := by
  rw [next]
  split
  · next hnothing =>
    rw [htake] at hnothing
    contradiction
  · next length hlong =>
    rw [htake] at hlong
    contradiction
  · next found hraw =>
    rw [htake] at hraw
    cases hraw
    obtain rfl : s.intake.take.1 = intake := congrArg Prod.fst htake
    rfl

/-- The stream after a record has been taken off it. -/
def stepped (s : Stream) (raw rest : Bytes) : Stream :=
  { s with
    intake := { s.intake with scanned := 0, buffer := rest }
    assembler := (s.assembler.step s.dictionary raw).1 }

/-- The first line is taken up, and then what follows it. -/
theorem drain_line {line rest : Bytes} (hscanned : s.intake.IsScanned)
    (hfits : Fits s.intake.limit line) (hbuffer : s.intake.buffer = line ++ Ascii.soh :: rest) :
    s.drain =
      ((s.stepped (line ++ [Ascii.soh]) rest).drain.1,
        ((s.assembler.step s.dictionary (line ++ [Ascii.soh])).2.map .ok).toList
          ++ (s.stepped (line ++ [Ascii.soh]) rest).drain.2) := by
  have hnext := next_of_record
    (Intake.take_line hscanned hfits.soh_not_mem hfits.length hbuffer)
  cases hstep : (s.assembler.step s.dictionary (line ++ [Ascii.soh])).2 with
  | none =>
    rw [hstep] at hnext
    rw [drain_congr hnext]
    rfl
  | some delivery =>
    rw [hstep] at hnext
    rw [drain_of_some (congrArg Prod.snd hnext), hnext]
    rfl

/-- What waits on a stream is within the limit: lines, and a tail without a
delimiter. -/
structure Holds (s : Stream) (lines : List Bytes) (tail : Bytes) : Prop where
  buffer : s.intake.buffer = unlines lines ++ tail
  scanned : s.intake.IsScanned
  fits : ∀ line ∈ lines, Fits s.intake.limit line
  soh_not_mem : Ascii.soh ∉ tail
  length_le : tail.length ≤ s.intake.limit

/-- Draining a stream takes up its lines as the assembler does on its own, and
leaves the tail. -/
theorem drain_eq {lines : List Bytes} {tail : Bytes} (h : s.Holds lines tail) :
    s.drain =
      ({ s with
          intake := ⟨s.intake.limit, tail.length, tail⟩
          assembler := (Assembler.run s.dictionary s.assembler
            (lines.map (· ++ [Ascii.soh]))).1 },
        (Assembler.run s.dictionary s.assembler (lines.map (· ++ [Ascii.soh]))).2.map .ok) := by
  induction lines generalizing s with
  | nil =>
    have hbuffer : s.intake.buffer = tail := h.buffer
    have hnext := next_of_nothing
      (Intake.take_tail (hbuffer ▸ h.soh_not_mem) (hbuffer ▸ h.length_le))
    rw [drain_of_none (congrArg Prod.snd hnext), hnext, hbuffer]
    rfl
  | cons line rest ih =>
    obtain ⟨hline, hrest⟩ := List.forall_mem_cons.1 h.fits
    have hbuffer : s.intake.buffer = line ++ Ascii.soh :: (unlines rest ++ tail) := by
      rw [h.buffer, unlines, List.flatMap_cons, List.append_assoc, List.append_assoc]
      rfl
    have hholds : (s.stepped (line ++ [Ascii.soh]) (unlines rest ++ tail)).Holds rest tail :=
      ⟨rfl, Intake.isScanned_of_zero rfl, hrest, h.soh_not_mem, h.length_le⟩
    rw [drain_line h.scanned hline hbuffer, ih hholds, List.map_cons, Assembler.run]
    dsimp only [stepped]
    rw [List.map_append]
    cases (s.assembler.step s.dictionary (line ++ [Ascii.soh])).2 with
    | none => rfl
    | some delivery => rfl

end Stream

end FixEngine
