import FixEngine.Proofs.Outcome
import FixEngine.Proofs.Wire.Record
import FixEngine.Wire.Assembly

/-!
# What assembly does record by record

A run of the assembler is looked at as the state after some records and as the
list of what each record handed over.  Each kind of record has one lemma that
says what it does in every state.
-/

namespace FixEngine

/-- The record neither begins nor ends a message.  It need not be well formed. -/
def Record.IsInner (raw : Bytes) : Prop :=
  tag? raw ≠ some Tag.beginString ∧ tag? raw ≠ some Tag.checkSum

namespace Assembler

variable {d : Dictionary} {state : Assembler} {raw : Bytes}

/-- The state after records have been taken up. -/
def after (d : Dictionary) (state : Assembler) (records : List Bytes) : Assembler :=
  records.foldl (fun state raw => (state.step d raw).1) state

/-- What each of some records hands over. -/
def trace (d : Dictionary) : Assembler → List Bytes → List (Option Delivery)
  | _, [] => []
  | state, raw :: rest => (state.step d raw).2 :: trace d (state.step d raw).1 rest

@[simp]
theorem after_nil (d : Dictionary) (state : Assembler) : after d state [] = state := rfl

@[simp]
theorem after_cons (d : Dictionary) (state : Assembler) (raw : Bytes) (rest : List Bytes) :
    after d state (raw :: rest) = after d (state.step d raw).1 rest := rfl

@[simp]
theorem after_append (d : Dictionary) (state : Assembler) (left right : List Bytes) :
    after d state (left ++ right) = after d (after d state left) right :=
  List.foldl_append

@[simp]
theorem trace_append (d : Dictionary) (state : Assembler) (left right : List Bytes) :
    trace d state (left ++ right) = trace d state left ++ trace d (after d state left) right := by
  induction left generalizing state with
  | nil => rfl
  | cons raw rest ih => rw [List.cons_append, trace, ih, trace, List.cons_append, after_cons]

/-- A run gives the last state and what was handed over, without the records
that handed over nothing. -/
theorem run_eq (d : Dictionary) (state : Assembler) (records : List Bytes) :
    run d state records = (after d state records, (trace d state records).filterMap id) := by
  induction records generalizing state with
  | nil => rfl
  | cons raw rest ih =>
    simp only [run, ih, trace, after_cons]
    cases (state.step d raw).2 with
    | none => rfl
    | some delivery => rfl

/-- The delivery of a record depends on the records before it only through the
state that they leave. -/
theorem getElem?_trace (d : Dictionary) (state : Assembler) (records : List Bytes) (k : Nat) :
    (trace d state records)[k]? =
      records[k]?.map fun raw => ((after d state (records.take k)).step d raw).2 := by
  induction records generalizing state k with
  | nil => rfl
  | cons raw rest ih =>
    cases k with
    | zero => rfl
    | succ k =>
      rw [trace, List.getElem?_cons_succ, ih, List.getElem?_cons_succ, List.take_succ_cons,
        after_cons]

/-! ### The kinds of records -/

/-- A record that begins a message does so in every state. -/
theorem step_begin {text : String} (htag : Record.tag? raw = some Tag.beginString)
    (htext : Record.text? raw = some text) :
    state.step d raw = (assembling (.start text raw),
      if state.isIdle then none else some (.error .unexpectedBeginString)) := by
  obtain ⟨r, hparse, hr⟩ := Record.tag?_eq_some_iff.1 htag
  rw [Record.text?_of_parse hparse] at htext
  simp only [step, hparse, hr, if_true, Value.readText, Value.orFault, htext]

/-- A record with tag 8 whose value is no text is refused in every state, and
what follows it is skipped. -/
theorem step_begin_of_notUtf8 (htag : Record.tag? raw = some Tag.beginString)
    (htext : Record.text? raw = none) :
    state.step d raw = (skipping, some (.error (.invalidValue Tag.beginString .notUtf8))) := by
  obtain ⟨r, hparse, hr⟩ := Record.tag?_eq_some_iff.1 htag
  rw [Record.text?_of_parse hparse] at htext
  simp only [step, hparse, hr, if_true, Value.readText, Value.orFault, htext]

/-- The rest of a dropped message is skipped in silence. -/
theorem step_skipping (h : Record.IsInner raw) : skipping.step d raw = (skipping, none) := by
  obtain ⟨hbegin, hend⟩ := h
  cases hparse : Record.parse raw with
  | error fault => simp only [step, hparse]
  | ok r =>
    rw [Record.tag?_of_parse hparse, ne_eq, Option.some.injEq] at hbegin hend
    simp only [step, hparse, if_neg hbegin, if_neg hend]

/-- The record that ends a message ends a dropped one in silence. -/
theorem step_skipping_end (hend : Record.tag? raw = some Tag.checkSum) :
    skipping.step d raw = (idle, none) := by
  obtain ⟨r, hparse, hr⟩ := Record.tag?_eq_some_iff.1 hend
  have hbegin : Tag.checkSum ≠ Tag.beginString := by decide
  simp only [step, hparse, hr, if_neg hbegin, if_true]

/-- Between messages nothing but a record with tag 8 changes the state. -/
theorem step_idle (hbegin : Record.tag? raw ≠ some Tag.beginString) :
    ∃ fault, idle.step d raw = (idle, some (.error fault)) := by
  cases hparse : Record.parse raw with
  | error fault => exact ⟨fault, by simp only [step, hparse]⟩
  | ok r =>
    rw [Record.tag?_of_parse hparse, ne_eq, Option.some.injEq] at hbegin
    exact ⟨.missingBeginString r.tag, by simp only [step, hparse, if_neg hbegin]⟩

/-- A message in progress takes up a record or is dropped with a fault. -/
theorem step_assembling (draft : MessageDraft) (h : Record.IsInner raw) :
    (∃ r draft', Record.parse raw = .ok r ∧ draft.add d raw r = .ok draft' ∧
      (assembling draft).step d raw = (assembling draft', none)) ∨
    ((∀ r draft', Record.parse raw = .ok r → draft.add d raw r ≠ .ok draft') ∧
      ∃ fault, (assembling draft).step d raw = (skipping, some (.error fault))) := by
  obtain ⟨hbegin, hend⟩ := h
  cases hparse : Record.parse raw with
  | error fault =>
    exact .inr ⟨by intro r draft' hr; contradiction, fault, by simp only [step, hparse]⟩
  | ok r =>
    rw [Record.tag?_of_parse hparse, ne_eq, Option.some.injEq] at hbegin hend
    cases hadd : draft.add d raw r with
    | ok draft' =>
      refine .inl ⟨r, draft', rfl, hadd, ?_⟩
      simp only [step, hparse, if_neg hbegin, if_neg hend, hadd]
    | error fault =>
      refine .inr ⟨?_, fault, by simp only [step, hparse, if_neg hbegin, if_neg hend, hadd]⟩
      intro r' draft' hr'
      cases hr'
      rw [hadd]
      intro h
      contradiction

/-- The record that ends a message completes the one in progress or drops it. -/
theorem step_assembling_end (draft : MessageDraft) {r : Record}
    (hparse : Record.parse raw = .ok r) (hend : r.tag = Tag.checkSum) :
    (assembling draft).step d raw = (idle, some (draft.finish r.value)) := by
  have hbegin : Tag.checkSum ≠ Tag.beginString := by decide
  simp only [step, hparse, hend, if_neg hbegin, if_true]

end Assembler

theorem MessageDraft.finish_eq_ok_iff {draft : MessageDraft} {declared : Bytes} {m : Message} :
    draft.finish declared = .ok m ↔
      ∃ entries, draft.body.close = .ok entries ∧
        Checksum.parse? declared = some draft.sum ∧
        m = ⟨draft.header, entries, ⟨some draft.sum, draft.trailerFields⟩⟩ := by
  rw [finish, bind_eq_ok_iff]
  constructor
  · rintro ⟨entries, hclose, h⟩
    cases hparse : Checksum.parse? declared with
    | none =>
      rw [hparse] at h
      contradiction
    | some checkSum =>
      by_cases hsum : checkSum = draft.sum
      · subst hsum
        simp only [hparse, if_true] at h
        exact ⟨entries, hclose, rfl, (Except.ok.inj h).symm⟩
      · simp only [hparse, if_neg hsum] at h
        contradiction
  · rintro ⟨entries, hclose, hparse, rfl⟩
    refine ⟨entries, hclose, ?_⟩
    simp only [hparse, if_true]
    rfl

end FixEngine
