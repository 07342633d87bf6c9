import FixEngine.Proofs.Wire.Pieces

/-!
# The end of a stream

When no more bytes come, a piece of a record or of a message is dropped.  Two things
outlast this: where bytes were dropped their number still counts as scanned, and
where none were left the rest of a message that a fault dropped is still skipped.
A stream that neither of them holds for is as good as new after its end.
-/

namespace FixEngine

namespace Intake

variable {intake : Intake}

/-- If nothing is taken, everything has been scanned and is within the limit. -/
theorem take_of_nothing (h : intake.take.2 = .nothing) :
    intake.take.1 = { intake with scanned := intake.buffer.length } ∧
      intake.buffer.length ≤ intake.limit := by
  unfold take at h ⊢
  split at h
  · split at h <;> contradiction
  · dsimp only at h ⊢
    split at h
    · contradiction
    · next hle => exact ⟨congrArg Prod.fst (if_neg hle), Nat.not_lt.1 hle⟩

/-- No record is within a limit of zero. -/
theorem limit_pos_of_record {raw : Bytes} (h : intake.take.2 = .record raw) :
    0 < intake.limit := by
  unfold take at h
  split at h
  · next n hn =>
    split at h
    · contradiction
    · next hle => exact Nat.lt_of_lt_of_le (recordEnd?_pos hn) (Nat.not_lt.1 hle)
  · dsimp only at h
    split at h <;> contradiction

/-- A lone delimiter is a record. -/
theorem take_soh {limit : Nat} (hlimit : 0 < limit) :
    (⟨limit, 0, [Ascii.soh]⟩ : Intake).take = (⟨limit, 0, []⟩, .record [Ascii.soh]) := by
  have hline : Ascii.soh ∉ ([] : Bytes) := List.not_mem_nil
  exact take_line (isScanned_of_zero rfl) hline hlimit rfl

end Intake

namespace Stream

variable {s : Stream} {d : Dictionary} {limit : Nat}

/-! ### What calls keep -/

/-- A stream goes by a dictionary and a limit.  Assembly begins with a record, and
none is within a limit of zero. -/
structure GoesBy (s : Stream) (d : Dictionary) (limit : Nat) : Prop where
  dictionary : s.dictionary = d
  intake : s.intake.limit = limit
  assembler : s.assembler = .idle ∨ 0 < limit

theorem goesBy_start (d : Dictionary) (limit : Nat) : (start d limit).GoesBy d limit :=
  ⟨rfl, rfl, .inl rfl⟩

theorem GoesBy.take (h : s.GoesBy d limit) : s.intake.take.1.limit = limit :=
  (Intake.limit_take s.intake).trans h.intake

theorem GoesBy.next (h : s.GoesBy d limit) : s.next.1.GoesBy d limit := by
  fun_induction Stream.next s with
  | case1 s => exact ⟨h.dictionary, h.take, h.assembler⟩
  | case2 s => exact ⟨h.dictionary, h.take, h.assembler⟩
  | case3 s raw hraw stepped rest =>
    exact ⟨h.dictionary, h.take, .inr (h.intake ▸ Intake.limit_pos_of_record hraw)⟩
  | case4 s raw hraw stepped rest _ ih =>
    exact ih ⟨h.dictionary, h.take, .inr (h.intake ▸ Intake.limit_pos_of_record hraw)⟩

theorem GoesBy.finish (h : s.GoesBy d limit) : s.finish.1.GoesBy d limit := by
  unfold Stream.finish
  split
  · next t ready heq => exact heq ▸ h.next
  · next t heq =>
    have ht : t.GoesBy d limit := by
      have hnext := h.next
      rwa [heq] at hnext
    split
    · exact ht
    · exact ⟨ht.dictionary, ht.intake, .inl rfl⟩

theorem GoesBy.after (h : s.GoesBy d limit) (calls : List Call) :
    (s.after calls).GoesBy d limit := by
  induction calls generalizing s with
  | nil => exact h
  | cons call rest ih =>
    apply ih
    cases call with
    | push bytes => exact ⟨h.dictionary, h.intake, h.assembler⟩
    | next => exact h.next
    | finish => exact h.finish

/-- If nothing is ready, everything has been scanned and is within the limit. -/
theorem next_of_none (h : s.next.2 = none) :
    s.next.1.intake.scanned = s.next.1.intake.buffer.length ∧
      s.next.1.intake.buffer.length ≤ s.next.1.intake.limit := by
  fun_induction Stream.next s with
  | case1 s hnothing =>
    obtain ⟨htake, hle⟩ := Intake.take_of_nothing hnothing
    rw [htake]
    exact ⟨rfl, hle⟩
  | case2 | case3 => contradiction
  | case4 s raw hraw stepped rest _ ih => exact ih h

/-! ### The end -/

/-- At its end a stream on which nothing is ready drops what waits, if anything. -/
theorem finish_of_none (h : s.next.2 = none) :
    s.finish =
      (if s.next.1.intake.buffer.isEmpty && s.next.1.assembler.isIdle then s.next.1
        else { s.next.1 with intake := s.next.1.intake.clear, assembler := .idle }, none) := by
  rw [finish]
  split
  · next t ready heq =>
    rw [heq] at h
    contradiction
  · next t heq =>
    rw [heq]
    split <;> rfl

/-- The end of a stream reports what is ready on it. -/
theorem next_of_finish (h : s.finish.2 = none) : s.next.2 = none := by
  cases hnext : s.next.2 with
  | none => rfl
  | some ready =>
    rw [finish] at h
    split at h
    · contradiction
    · next t heq =>
      rw [heq] at hnext
      contradiction

/-- What waits is dropped, but its length stays as the number of bytes scanned. -/
theorem intake_finish (hgoes : s.GoesBy d limit) (h : s.next.2 = none) :
    s.finish.1.intake = ⟨limit, s.next.1.intake.buffer.length, []⟩ := by
  obtain ⟨hscanned, -⟩ := next_of_none h
  rw [finish_of_none h]
  dsimp only
  split
  · next hempty =>
    rw [Bool.and_eq_true, List.isEmpty_iff] at hempty
    rw [← hgoes.next.intake, ← hscanned, ← hempty.1]
  · rw [Intake.clear, ← hgoes.next.intake, hscanned]

/-- The rest of a dropped message is skipped beyond the end where no bytes were
left, and only there. -/
theorem assembler_finish (h : s.next.2 = none) :
    (s.finish.1.assembler = .skipping ∧
        s.next.1.intake.buffer = [] ∧ s.next.1.assembler = .skipping) ∨
      (s.finish.1.assembler = .idle ∧
        ¬(s.next.1.intake.buffer = [] ∧ s.next.1.assembler = .skipping)) := by
  rw [finish_of_none h]
  dsimp only
  split
  · next hempty =>
    rw [Bool.and_eq_true, List.isEmpty_iff] at hempty
    cases hassembler : s.next.1.assembler with
    | idle => exact .inr ⟨rfl, by simp⟩
    | skipping => exact .inl ⟨rfl, hempty.1, rfl⟩
    | assembling draft =>
      rw [hassembler] at hempty
      exact absurd hempty.2 Bool.false_ne_true
  · next hempty =>
    refine .inr ⟨rfl, fun ⟨hbuffer, hskipping⟩ => hempty ?_⟩
    rw [hbuffer, hskipping]
    rfl

/-! ### Telling streams apart -/

/-- Streams that no calls tell apart agree on a delimiter that follows at once. -/
theorem next_push_eq {t : Stream} (h : ∀ calls, s.answers calls = t.answers calls) :
    (s.push [Ascii.soh]).next.2 = (t.push [Ascii.soh]).next.2 := by
  have hanswers := h [.push [Ascii.soh], .next]
  simp only [answers, perform] at hanswers
  exact congrArg Prod.fst (List.cons.inj (List.cons.inj hanswers).2).1

/-- A new stream reports the delimiter as a malformed record. -/
theorem next_start_push (hlimit : 0 < limit) :
    ((start d limit).push [Ascii.soh]).next.2 ≠ none := by
  have htake : ((start d limit).push [Ascii.soh]).intake.take =
      (⟨limit, 0, []⟩, .record [Ascii.soh]) := Intake.take_soh hlimit
  rw [next_of_record htake]
  exact Option.some_ne_none _

/-- Where bytes that are gone count as scanned, the delimiter goes unnoticed. -/
theorem next_push_of_scanned {k : Nat} (hintake : s.intake = ⟨limit, k + 1, []⟩)
    (hlimit : 0 < limit) : (s.push [Ascii.soh]).next.2 = none := by
  have hpush : (s.push [Ascii.soh]).intake = ⟨limit, k + 1, [Ascii.soh]⟩ :=
    congrArg (·.push [Ascii.soh]) hintake
  have hstart : min (k + 1) [Ascii.soh].length = 1 := Nat.min_eq_right (Nat.succ_pos k)
  have hend : (⟨limit, k + 1, [Ascii.soh]⟩ : Intake).recordEnd? = none := by
    simp only [Intake.recordEnd?, hstart]
    rfl
  have htake : (s.push [Ascii.soh]).intake.take = (⟨limit, 1, [Ascii.soh]⟩, .nothing) := by
    simp only [hpush, Intake.take, hend]
    exact if_neg (Nat.not_lt.2 hlimit)
  rw [next_of_nothing htake]

/-- Where the rest of a dropped message is skipped, so is the delimiter. -/
theorem next_push_of_skipping (hintake : s.intake = ⟨limit, 0, []⟩) (hlimit : 0 < limit)
    (hskipping : s.assembler = .skipping) : (s.push [Ascii.soh]).next.2 = none := by
  have hpush : (s.push [Ascii.soh]).intake = ⟨limit, 0, [Ascii.soh]⟩ :=
    congrArg (·.push [Ascii.soh]) hintake
  have htake : (s.push [Ascii.soh]).intake.take = (⟨limit, 0, []⟩, .record [Ascii.soh]) := by
    rw [hpush]
    exact Intake.take_soh hlimit
  have hstep : (s.push [Ascii.soh]).assembler.step (s.push [Ascii.soh]).dictionary [Ascii.soh] =
      (.skipping, none) := by
    have hassembler : (s.push [Ascii.soh]).assembler = .skipping := hskipping
    rw [hassembler]
    rfl
  have hdone : (⟨limit, 0, []⟩ : Intake).take = (⟨limit, 0, []⟩, .nothing) :=
    Intake.take_tail List.not_mem_nil (Nat.zero_le _)
  rw [next_of_record htake, hstep]
  dsimp only
  rw [next_of_nothing hdone]

/-- When the end of a stream has been reached nothing waits.  The stream then answers
all calls as a new one with its dictionary and limit if and only if it dropped no
bytes and was not left in the rest of a dropped message. -/
theorem answers_finish_iff (d : Dictionary) (limit : Nat) (history : List Call)
    (hend : ((start d limit).after history).finish.2 = none) :
    ((start d limit).after history).finish.1.intake.buffer = [] ∧
      ((∀ calls, ((start d limit).after history).finish.1.answers calls =
          (start d limit).answers calls) ↔
        ((start d limit).after history).next.1.intake.buffer = [] ∧
          ((start d limit).after history).next.1.assembler ≠ .skipping) := by
  generalize hs : (start d limit).after history = s at hend ⊢
  have hgoes : s.GoesBy d limit := hs ▸ (goesBy_start d limit).after history
  have hnone := next_of_finish hend
  have hintake := intake_finish hgoes hnone
  refine ⟨congrArg Intake.buffer hintake, ?_, ?_⟩
  · intro halike
    have hprobe := next_push_eq halike
    have hreports (hlimit : 0 < limit) : (s.finish.1.push [Ascii.soh]).next.2 ≠ none :=
      hprobe ▸ next_start_push hlimit
    cases hbuffer : s.next.1.intake.buffer with
    | cons b rest =>
      -- Something waited, so the limit is not zero, and the delimiter goes unnoticed.
      have hle := (next_of_none hnone).2
      rw [hbuffer, hgoes.next.intake] at hle
      have hlimit : 0 < limit := Nat.lt_of_lt_of_le (Nat.succ_pos _) hle
      rw [hbuffer] at hintake
      exact absurd (next_push_of_scanned hintake hlimit) (hreports hlimit)
    | nil =>
      refine ⟨rfl, fun hskipping => ?_⟩
      rw [hbuffer] at hintake
      rcases assembler_finish hnone with ⟨hskips, -⟩ | ⟨-, hnot⟩
      · have hlimit : 0 < limit := by
          rcases hgoes.finish.assembler with hidle | hlimit
          · rw [hskips] at hidle
            contradiction
          · exact hlimit
        exact absurd (next_push_of_skipping hintake hlimit hskips) (hreports hlimit)
      · exact hnot ⟨hbuffer, hskipping⟩
  · rintro ⟨hbuffer, hassembler⟩ calls
    rw [hbuffer] at hintake
    have hidle : s.finish.1.assembler = .idle := by
      rcases assembler_finish hnone with ⟨-, -, hskipping⟩ | ⟨hidle, -⟩
      · contradiction
      · exact hidle
    have hstart : s.finish.1 = ⟨d, ⟨limit, 0, []⟩, .idle⟩ := by
      rw [← hgoes.finish.dictionary, ← hidle]
      exact congrArg (Stream.mk _ · _) hintake
    rw [hstart]
    rfl

/-- A message without an end. -/
def openCalls : List Call := [.push (Utf8.encode "8=FIX.4.4\x0135=0\x01"), .next]

/-- The message is dropped, and the stream is as good as new. -/
theorem answers_finish_iff_open :
    ((start .usual 20).after openCalls).finish.2 = none ∧
      ((start .usual 20).after openCalls).next.1.assembler.isIdle = false ∧
      ∀ calls, ((start .usual 20).after openCalls).finish.1.answers calls =
        (start .usual 20).answers calls := by
  have hend : ((start .usual 20).after openCalls).finish.2 = none :=
    Option.isNone_iff_eq_none.1 (by decide +kernel)
  have hbuffer : ((start .usual 20).after openCalls).next.1.intake.buffer = [] := by
    decide +kernel
  have hopen : ((start .usual 20).after openCalls).next.1.assembler.isIdle = false := by
    decide +kernel
  have hassembler : ((start .usual 20).after openCalls).next.1.assembler ≠ .skipping := by
    intro hskipping
    rw [hskipping] at hopen
    contradiction
  exact ⟨hend, hopen, (answers_finish_iff .usual 20 openCalls hend).2.2 ⟨hbuffer, hassembler⟩⟩

/-- A record without an end. -/
def cutOffCalls : List Call := [.push (Utf8.encode "58=0123456789")]

/-- A message with a malformed record and without an end. -/
def malformedCalls : List Call := [.push (Utf8.encode "8=FIX.4.4\x01?\x01"), .next]

def heartbeatCalls : List Call :=
  [.push (Utf8.encode "8=FIX.4.4\x019=5\x0135=0\x0149=A\x0156=B\x0134=1\x0110=080\x01"), .next]

/-- A record that stands outside a message. -/
def strayCalls : List Call := [.push (Utf8.encode "58=a\x01"), .next]

/-- How the messages begin that answers hand over. -/
def beginnings (found : List (Ready × Bytes)) : List String :=
  found.filterMap fun answer => (handsOver answer.1).map (·.header.beginString)

/-- Streams at their end are not as good as new: one joins the first two records of
the next message, and one is silent about a stray record. -/
theorem exists_answers_finish_ne :
    ∃ (d : Dictionary) (limit : Nat) (cutOff malformed heartbeat stray : List Call),
      ((start d limit).after cutOff).finish.2 = none ∧
      ((start d limit).after malformed).finish.2 = none ∧
      beginnings ((start d limit).answers heartbeat) = ["FIX.4.4"] ∧
      beginnings (((start d limit).after cutOff).finish.1.answers heartbeat) =
        ["FIX.4.4\x019=5"] ∧
      ((start d limit).answers stray).map (·.1.isSome) = [false, true] ∧
      (((start d limit).after malformed).finish.1.answers stray).map (·.1.isSome) =
        [false, false] := by
  refine ⟨.usual, 20, cutOffCalls, malformedCalls, heartbeatCalls, strayCalls, ?_, ?_, ?_, ?_, ?_,
    ?_⟩
  · exact Option.isNone_iff_eq_none.1 (by decide +kernel)
  · exact Option.isNone_iff_eq_none.1 (by decide +kernel)
  all_goals decide +kernel

end Stream

end FixEngine
