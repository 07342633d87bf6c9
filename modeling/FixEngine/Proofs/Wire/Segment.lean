import FixEngine.Proofs.Wire.Trace

/-!
# Segments of a stream

A segment runs from a record that begins a message to the next record that ends
one.  Whatever stands in it, and whatever came before it, a segment hands over
exactly one message or fault and leaves no trace behind: a fault of one message
is neither reported twice nor does it hide the next message.
-/

namespace FixEngine

/-- Records from one that begins a message to the next that ends one. -/
structure Segment where
  first : Bytes
  inner : List Bytes
  last : Bytes
  begins : Record.tag? first = some Tag.beginString
  isInner : ∀ raw ∈ inner, Record.IsInner raw
  ends : Record.tag? last = some Tag.checkSum

namespace Segment

/-- All records of a segment. -/
def records (s : Segment) : List Bytes := s.first :: (s.inner ++ [s.last])

end Segment

namespace Assembler

variable {d : Dictionary} {inner : List Bytes} {last : Bytes}

/-- The rest of a dropped message hands over nothing and ends with the message. -/
theorem trace_skipping (hinner : ∀ raw ∈ inner, Record.IsInner raw)
    (hlast : Record.tag? last = some Tag.checkSum) :
    after d skipping (inner ++ [last]) = idle ∧
      (trace d skipping (inner ++ [last])).filterMap id = [] := by
  induction inner with
  | nil =>
    simp only [List.nil_append, after_cons, trace, step_skipping_end hlast]
    exact ⟨rfl, rfl⟩
  | cons raw rest ih =>
    have hrest := ih fun raw' h => hinner raw' (List.mem_cons_of_mem raw h)
    rw [List.cons_append, after_cons, trace, step_skipping (hinner raw List.mem_cons_self)]
    exact hrest

/-- A message in progress hands over one message or fault by the record that
ends it. -/
theorem trace_assembling (draft : MessageDraft) (hinner : ∀ raw ∈ inner, Record.IsInner raw)
    (hlast : Record.tag? last = some Tag.checkSum) :
    after d (assembling draft) (inner ++ [last]) = idle ∧
      ∃ result, (trace d (assembling draft) (inner ++ [last])).filterMap id = [result] := by
  induction inner generalizing draft with
  | nil =>
    obtain ⟨r, hparse, hr⟩ := Record.tag?_eq_some_iff.1 hlast
    simp only [List.nil_append, after_cons, trace, step_assembling_end draft hparse hr]
    exact ⟨rfl, draft.finish r.value, rfl⟩
  | cons raw rest ih =>
    have hraw := hinner raw List.mem_cons_self
    have hrest : ∀ raw' ∈ rest, Record.IsInner raw' :=
      fun raw' h => hinner raw' (List.mem_cons_of_mem raw h)
    rw [List.cons_append, after_cons, trace]
    rcases step_assembling (d := d) draft hraw with
      ⟨r, draft', -, -, hstep⟩ | ⟨-, fault, hstep⟩
    · -- The record was taken up, so the result is still to come.
      rw [hstep]
      exact ih draft' hrest
    · -- The fault is the result, and the rest is skipped.
      obtain ⟨hafter, htrace⟩ := trace_skipping (d := d) hrest hlast
      rw [hstep]
      refine ⟨hafter, .error fault, ?_⟩
      rw [List.filterMap_cons_some (f := id) rfl, htrace]

/-- After any records, a segment hands over what it does on its own, and then no
message is in progress.  Only the first record of the segment may differ: it
also reports a message that it cuts off, if it begins one itself. -/
theorem trace_segment (d : Dictionary) (earlier : List Bytes) (s : Segment) :
    ∃ (head : Option Delivery) (tail : List (Option Delivery)) (result : Delivery),
      trace d .idle s.records = head :: tail ∧
      (head :: tail).filterMap id = [result] ∧
      trace d (after d .idle earlier) s.records =
        (if !(after d .idle earlier).isIdle && (Record.text? s.first).isSome
          then some (.error .unexpectedBeginString) else head) :: tail ∧
      ((Record.text? s.first).isSome → head = none) ∧
      after d .idle s.records = .idle ∧
      after d (after d .idle earlier) s.records = .idle := by
  generalize after d .idle earlier = state
  cases htext : Record.text? s.first with
  | some text =>
    have hstep (state : Assembler) :
        state.step d s.first = (assembling (.start text s.first),
          if state.isIdle then none else some (.error .unexpectedBeginString)) :=
      step_begin s.begins htext
    obtain ⟨hafter, result, hresult⟩ :=
      trace_assembling (d := d) (.start text s.first) s.isInner s.ends
    refine ⟨none, trace d (assembling (.start text s.first)) (s.inner ++ [s.last]), result,
      ?_, hresult, ?_, fun _ => rfl, ?_, ?_⟩
    · rw [Segment.records, trace, hstep]
      rfl
    · rw [Segment.records, trace, hstep]
      cases hidle : state.isIdle with
      | true => rfl
      | false => rfl
    · rw [Segment.records, after_cons, hstep]
      exact hafter
    · rw [Segment.records, after_cons, hstep]
      exact hafter
  | none =>
    have hstep (state : Assembler) :
        state.step d s.first =
          (skipping, some (.error (.invalidValue Tag.beginString .notUtf8))) :=
      step_begin_of_notUtf8 s.begins htext
    obtain ⟨hafter, htrace⟩ := trace_skipping (d := d) s.isInner s.ends
    let result : Delivery := .error (.invalidValue Tag.beginString .notUtf8)
    refine ⟨some result, trace d skipping (s.inner ++ [s.last]), result, ?_, ?_, ?_, ?_, ?_, ?_⟩
    · rw [Segment.records, trace, hstep]
    · rw [List.filterMap_cons_some (f := id) rfl, htrace]
    · rw [Segment.records, trace, hstep, Option.isSome_none, Bool.and_false]
      rfl
    · intro h
      contradiction
    · rw [Segment.records, after_cons, hstep]
      exact hafter
    · rw [Segment.records, after_cons, hstep]
      exact hafter

end Assembler

end FixEngine
