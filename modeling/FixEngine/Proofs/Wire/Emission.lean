import FixEngine.Proofs.Wire.Checksum
import FixEngine.Proofs.Wire.Nesting
import FixEngine.Proofs.Wire.Trace
import Mathlib.Data.List.Induction

/-!
# Which messages come out

A message comes out exactly where a record with tag 10 closes a span of records
that began with tag 8, kept to their places, and add up to the checksum that the
closing record declares.
-/

namespace FixEngine

/-! ### The sum of a span -/

/-- The bytes of records, each with one delimiter at its end. -/
def Record.delimited (records : List Bytes) : Bytes :=
  records.flatMap fun raw => trimmed raw ++ [Ascii.soh]

/-- The sum of the bytes of records, each with one delimiter at its end. -/
def Record.total (records : List Bytes) : Nat :=
  ((delimited records).map UInt8.toNat).sum % 256

theorem Record.foldl_addTo (sum : UInt8) (records : List Bytes) :
    records.foldl addTo sum = Checksum.extend sum (delimited records) := by
  induction records generalizing sum with
  | nil => rfl
  | cons raw rest ih =>
    have hcons : delimited (raw :: rest) = (trimmed raw ++ [Ascii.soh]) ++ delimited rest := rfl
    rw [List.foldl_cons, ih, hcons, Checksum.extend_append]
    rfl

theorem Record.toNat_foldl_addTo (records : List Bytes) :
    (records.foldl addTo 0).toNat = total records := by
  rw [foldl_addTo, Checksum.toNat_extend, total, UInt8.toNat_zero, Nat.zero_add]

/-! ### Spans -/

/-- A part of some records that ends with the record at an index, has a record
that begins a message at its start, and none that begins or ends one between. -/
structure Span (records : List Bytes) (k : Nat) where
  before : List Bytes
  first : Bytes
  inner : List Bytes
  last : Bytes
  rest : List Bytes
  split : records = before ++ first :: (inner ++ last :: rest)
  index : k = before.length + 1 + inner.length
  isInner : ∀ raw ∈ inner, Record.IsInner raw

namespace Span

variable {records : List Bytes} {k : Nat}

/-- The span holds a message: it begins with a text under tag 8, its records
keep to their places, its groups are complete, and it ends with its checksum
under tag 10. -/
structure IsSealed (d : Dictionary) (s : Span records k) : Prop where
  begins : Record.tag? s.first = some Tag.beginString
  text : (Record.text? s.first).isSome
  path : ∃ nest, Nest.Path d [] s.inner nest ∧ nest.AllComplete
  ends : ∃ r, Record.parse s.last = .ok r ∧ r.tag = Tag.checkSum ∧
    1 ≤ r.value.length ∧ r.value.length ≤ 3 ∧ Numeral.allDigits r.value = true ∧
    Numeral.value r.value = Record.total (s.first :: s.inner)

/-- The records before the last one of a span. -/
theorem take_eq (s : Span records k) : records.take k = s.before ++ s.first :: s.inner := by
  obtain ⟨before, first, inner, last, rest, rfl, rfl, -⟩ := s
  have hlength : before.length + 1 + inner.length = (before ++ first :: inner).length := by
    rw [List.length_append, List.length_cons]
    omega
  have hsplit : before ++ first :: (inner ++ last :: rest) =
      (before ++ first :: inner) ++ last :: rest := by
    simp
  dsimp only
  rw [hsplit, hlength, List.take_left]

theorem getElem?_eq (s : Span records k) : records[k]? = some s.last := by
  obtain ⟨before, first, inner, last, rest, rfl, rfl, -⟩ := s
  have hindex : before.length + 1 + inner.length - before.length = inner.length + 1 := by omega
  dsimp only
  rw [List.getElem?_append_right (by omega), hindex, List.getElem?_cons_succ,
    List.getElem?_append_right (Nat.le_refl _), Nat.sub_self]
  rfl

end Span

namespace Assembler

variable {d : Dictionary} {inner : List Bytes}

/-- The record at an index hands over a message. -/
def Emits (d : Dictionary) (records : List Bytes) (k : Nat) (m : Message) : Prop :=
  (trace d .idle records)[k]? = some (some (.ok m))

/-- The messages that come out of a byte string are those that its records hand over. -/
theorem mem_decodeAll_iff {bytes : Bytes} {m : Message} :
    .ok m ∈ Message.decodeAll d bytes ↔ ∃ k, Emits d (Record.cut bytes) k m := by
  rw [Message.decodeAll, runBytes, run_eq, List.mem_filterMap]
  simp only [id_eq, exists_eq_right]
  exact List.mem_iff_getElem?

theorem step_assembling_inner {raw : Bytes} {draft : MessageDraft} (hraw : Record.IsInner raw)
    (h : draft.body.IsSound) :
    (∃ r draft', Record.parse raw = .ok r ∧ draft.body.nest.Fits d r ∧
      (draft.body.nest.closed r).AllComplete ∧
      ((assembling draft).step d raw).1 = assembling draft' ∧ draft'.body.IsSound ∧
      draft'.body.nest = draft.body.nest.after d r ∧ draft'.sum = Record.addTo draft.sum raw) ∨
    ((∀ r, Record.parse raw = .ok r →
        ¬ (draft.body.nest.Fits d r ∧ (draft.body.nest.closed r).AllComplete)) ∧
      ((assembling draft).step d raw).1 = skipping) := by
  have hcases (r : Record) :=
    ({ draft with sum := Record.addTo draft.sum raw } : MessageDraft).addRecord_cases
      (d := d) (r := r) h
  rcases step_assembling (d := d) draft hraw with
    ⟨r, draft', hparse, hadd, hstep⟩ | ⟨hrefused, fault, hstep⟩
  · rcases hcases r with ⟨hfits, hclosed, draft'', hadd', hsound, hnest, hsum⟩ | ⟨-, fault, hadd'⟩
    · have heq : draft'' = draft' := Except.ok.inj (hadd'.symm.trans hadd)
      subst heq
      exact .inl ⟨r, draft'', hparse, hfits, hclosed, by rw [hstep], hsound, hnest, hsum⟩
    · have hboth := hadd'.symm.trans hadd
      contradiction
  · refine .inr ⟨?_, by rw [hstep]⟩
    intro r hparse hadmits
    rcases hcases r with ⟨-, -, draft', hadd, -⟩ | ⟨hno, -⟩
    · exact hrefused r draft' hparse hadd
    · exact hno hadmits

theorem after_skipping (hinner : ∀ raw ∈ inner, Record.IsInner raw) :
    after d skipping inner = skipping := by
  induction inner with
  | nil => rfl
  | cons raw rest ih =>
    rw [after_cons, step_skipping (hinner raw List.mem_cons_self)]
    exact ih fun raw' h => hinner raw' (List.mem_cons_of_mem raw h)

/-- Along the inside of a message the draft keeps the open groups and the sum
of the bytes, and it is dropped just when the records leave the path. -/
theorem after_assembling (draft : MessageDraft) (h : draft.body.IsSound)
    (hinner : ∀ raw ∈ inner, Record.IsInner raw) :
    (∃ draft', after d (assembling draft) inner = assembling draft' ∧
      Nest.Path d draft.body.nest inner draft'.body.nest ∧ draft'.body.IsSound ∧
      draft'.sum = inner.foldl Record.addTo draft.sum) ∨
    (after d (assembling draft) inner = skipping ∧
      ∀ nest, ¬ Nest.Path d draft.body.nest inner nest) := by
  induction inner generalizing draft with
  | nil => exact .inl ⟨draft, rfl, .nil _, h, rfl⟩
  | cons raw rest ih =>
    have hraw := hinner raw List.mem_cons_self
    have hrest : ∀ raw' ∈ rest, Record.IsInner raw' :=
      fun raw' h => hinner raw' (List.mem_cons_of_mem raw h)
    rw [after_cons]
    rcases step_assembling_inner (d := d) hraw h with
      ⟨r, next, hparse, hfits, hclosed, hstep, hsound, hnest, hsum⟩ | ⟨hrefused, hstep⟩
    · rw [hstep]
      rcases ih next hsound hrest with ⟨last, hafter, hpath, hlast, hlastSum⟩ | ⟨hafter, hnone⟩
      · rw [hnest] at hpath
        rw [hsum] at hlastSum
        exact .inl ⟨last, hafter, .cons hparse hfits hclosed hpath, hlast, hlastSum⟩
      · refine .inr ⟨hafter, ?_⟩
        rintro nest (_ | ⟨hparse', -, -, hpath⟩)
        cases hparse.symm.trans hparse'
        rw [← hnest] at hpath
        exact hnone nest hpath
    · rw [hstep]
      refine .inr ⟨after_skipping hrest, ?_⟩
      rintro nest (_ | ⟨hparse, hfits, hclosed, -⟩)
      exact hrefused _ hparse ⟨hfits, hclosed⟩

/-- A message in progress goes back to the record that began it. -/
theorem exists_first {records : List Bytes} {draft : MessageDraft}
    (h : after d .idle records = assembling draft) :
    ∃ before first inner text, records = before ++ first :: inner ∧
      Record.tag? first = some Tag.beginString ∧ Record.text? first = some text ∧
      (∀ raw ∈ inner, Record.IsInner raw) ∧
      after d (assembling (.start text first)) inner = assembling draft := by
  induction records using List.reverseRecOn generalizing draft with
  | nil => contradiction
  | append_singleton records raw ih =>
    rw [after_append, after_cons, after_nil] at h
    by_cases hbegin : Record.tag? raw = some Tag.beginString
    · cases htext : Record.text? raw with
      | some text =>
        rw [step_begin hbegin htext] at h
        exact ⟨records, raw, [], text, rfl, hbegin, htext, by simp, h⟩
      | none =>
        rw [step_begin_of_notUtf8 hbegin htext] at h
        contradiction
    cases hstate : after d .idle records with
    | idle =>
      obtain ⟨fault, hstep⟩ := step_idle (d := d) hbegin
      rw [hstate, hstep] at h
      contradiction
    | skipping =>
      by_cases hend : Record.tag? raw = some Tag.checkSum
      · rw [hstate, step_skipping_end hend] at h
        contradiction
      · rw [hstate, step_skipping ⟨hbegin, hend⟩] at h
        contradiction
    | assembling earlier =>
      rw [hstate] at h
      by_cases hend : Record.tag? raw = some Tag.checkSum
      · obtain ⟨r, hparse, hr⟩ := Record.tag?_eq_some_iff.1 hend
        rw [step_assembling_end earlier hparse hr] at h
        contradiction
      · obtain ⟨before, first, inner, text, rfl, hfirst, htext, hinner, hafter⟩ := ih hstate
        refine ⟨before, first, inner ++ [raw], text, by simp, hfirst, htext, ?_, ?_⟩
        · intro raw' hraw'
          rcases List.mem_append.1 hraw' with hmem | hmem
          · exact hinner raw' hmem
          · rw [List.mem_singleton.1 hmem]
            exact ⟨hbegin, hend⟩
        · rw [after_append, hafter]
          exact h

/-- Only the record that ends a message in progress hands one over. -/
theorem step_emits {state : Assembler} {raw : Bytes} {m : Message}
    (h : (state.step d raw).2 = some (.ok m)) :
    ∃ draft r, state = assembling draft ∧ Record.parse raw = .ok r ∧ r.tag = Tag.checkSum ∧
      draft.finish r.value = .ok m := by
  have hfault (fault : DecodingFault) : some (Except.error fault : Delivery) ≠ some (.ok m) := by
    simp
  by_cases hbegin : Record.tag? raw = some Tag.beginString
  · cases htext : Record.text? raw with
    | some text =>
      rw [step_begin hbegin htext] at h
      dsimp only at h
      split at h
      · contradiction
      · exact absurd h (hfault _)
    | none =>
      rw [step_begin_of_notUtf8 hbegin htext] at h
      exact absurd h (hfault _)
  cases state with
  | idle =>
    obtain ⟨fault, hstep⟩ := step_idle (d := d) hbegin
    rw [hstep] at h
    exact absurd h (hfault fault)
  | skipping =>
    by_cases hend : Record.tag? raw = some Tag.checkSum
    · rw [step_skipping_end hend] at h
      contradiction
    · rw [step_skipping ⟨hbegin, hend⟩] at h
      contradiction
  | assembling draft =>
    by_cases hend : Record.tag? raw = some Tag.checkSum
    · obtain ⟨r, hparse, hr⟩ := Record.tag?_eq_some_iff.1 hend
      rw [step_assembling_end draft hparse hr] at h
      exact ⟨draft, r, rfl, hparse, hr, Option.some.inj h⟩
    · rcases step_assembling (d := d) draft ⟨hbegin, hend⟩ with
        ⟨r, next, -, -, hstep⟩ | ⟨-, fault, hstep⟩
      · rw [hstep] at h
        contradiction
      · rw [hstep] at h
        exact absurd h (hfault fault)

end Assembler

namespace Nest

variable {d : Dictionary}

/-- Records lead from a nest to one other nest only. -/
theorem Path.unique {nest last last' : Nest} {records : List Bytes}
    (h : Path d nest records last) (h' : Path d nest records last') : last = last' := by
  induction h with
  | nil nest =>
    cases h'
    rfl
  | cons hparse _ _ _ ih =>
    rcases h' with _ | ⟨hparse', -, -, hrest⟩
    cases hparse.symm.trans hparse'
    exact ih hrest

end Nest

namespace Assembler

variable {d : Dictionary} {records : List Bytes} {k : Nat}

theorem body_start (text : String) (first : Bytes) :
    (MessageDraft.start text first).body.IsSound ∧ (MessageDraft.start text first).body.nest = [] :=
  ⟨BodyDraft.isSound_nil [], rfl⟩

/-- The state before the last record of a span that a text under tag 8 begins. -/
theorem after_take (s : Span records k) {text : String}
    (hbegins : Record.tag? s.first = some Tag.beginString)
    (htext : Record.text? s.first = some text) :
    after d .idle (records.take k) = after d (assembling (.start text s.first)) s.inner := by
  rw [s.take_eq, after_append, after_cons, step_begin hbegins htext]

/-- The record that ends a sealed span hands over a message, which has the sum
of the span as its checksum. -/
theorem emits_of_isSealed {s : Span records k} (h : s.IsSealed d) :
    ∃ m, Emits d records k m ∧
      m.trailer.checkSum = some (UInt8.ofNat (Record.total (s.first :: s.inner))) := by
  obtain ⟨text, htext⟩ := Option.isSome_iff_exists.1 h.text
  obtain ⟨hsound, hnest⟩ := body_start text s.first
  obtain ⟨last, hpath, hcomplete⟩ := h.path
  rcases after_assembling (d := d) (.start text s.first) hsound s.isInner with
    ⟨draft, hafter, hpath', hdraft, hsum⟩ | ⟨-, hnone⟩
  · rw [hnest] at hpath'
    have hlast : draft.body.nest = last := hpath'.unique hpath
    have hsum : draft.sum.toNat = Record.total (s.first :: s.inner) := by
      rw [hsum, ← Record.toNat_foldl_addTo]
      rfl
    obtain ⟨r, hparse, htag, hpos, hlength, hdigits, hvalue⟩ := h.ends
    have hdeclared : Checksum.parse? r.value = some draft.sum :=
      Checksum.parse?_eq_some_iff.2 ⟨hpos, hlength, hdigits, hvalue.trans hsum.symm⟩
    rcases BodyDraft.close_cases hdraft with ⟨-, entries, hclose⟩ | ⟨hincomplete, -⟩
    · have hfinish := MessageDraft.finish_eq_ok_iff.2 ⟨entries, hclose, hdeclared, rfl⟩
      rw [← hsum, UInt8.ofNat_toNat]
      refine ⟨⟨draft.header, entries, ⟨some draft.sum, draft.trailerFields⟩⟩, ?_, rfl⟩
      rw [Emits, getElem?_trace, s.getElem?_eq, after_take s h.begins htext, hafter,
        Option.map_some, step_assembling_end draft hparse htag, hfinish]
    · rw [hlast] at hincomplete
      exact absurd hcomplete hincomplete
  · rw [hnest] at hnone
    exact absurd hpath (hnone last)

/-- The span that a message was handed over for is sealed. -/
theorem isSealed_of_emits {m : Message} (h : Emits d records k m) (s : Span records k)
    {text : String} (hbegins : Record.tag? s.first = some Tag.beginString)
    (htext : Record.text? s.first = some text) : s.IsSealed d := by
  rw [Emits, getElem?_trace, s.getElem?_eq, after_take s hbegins htext, Option.map_some] at h
  obtain ⟨draft, r, hafter, hparse, htag, hfinish⟩ := step_emits (Option.some.inj h)
  obtain ⟨entries, hclose, hdeclared, -⟩ := MessageDraft.finish_eq_ok_iff.1 hfinish
  obtain ⟨hsound, hnest⟩ := body_start text s.first
  rcases after_assembling (d := d) (.start text s.first) hsound s.isInner with
    ⟨draft', hafter', hpath, hdraft, hsum⟩ | ⟨hskipping, -⟩
  · cases hafter.symm.trans hafter'
    rw [hnest] at hpath
    have hcomplete : draft.body.nest.AllComplete := by
      rcases BodyDraft.close_cases hdraft with ⟨hcomplete, -⟩ | ⟨-, fault, hfault⟩
      · exact hcomplete
      · rw [hfault] at hclose
        contradiction
    obtain ⟨hpos, hlength, hdigits, hvalue⟩ := Checksum.parse?_eq_some_iff.1 hdeclared
    have htotal : Numeral.value r.value = Record.total (s.first :: s.inner) := by
      rw [hvalue, hsum, ← Record.toNat_foldl_addTo]
      rfl
    exact ⟨hbegins, by simp [htext], ⟨draft.body.nest, hpath, hcomplete⟩, r, hparse, htag, hpos,
      hlength, hdigits, htotal⟩
  · rw [hskipping] at hafter
    contradiction

/-- A message that is handed over ends a sealed span. -/
theorem exists_isSealed {m : Message} (h : Emits d records k m) :
    ∃ s : Span records k, s.IsSealed d := by
  have hemits := h
  rw [Emits, getElem?_trace, Option.map_eq_some_iff] at h
  obtain ⟨raw, hraw, hstep⟩ := h
  obtain ⟨draft, r, hstate, -⟩ := step_emits hstep
  obtain ⟨before, first, inner, text, hsplit, hbegins, htext, hinner, -⟩ := exists_first hstate
  obtain ⟨hlt, hget⟩ := List.getElem?_eq_some_iff.1 hraw
  have hrecords : records = before ++ first :: (inner ++ raw :: records.drop (k + 1)) := by
    calc
      records = records.take k ++ records.drop k := (List.take_append_drop k records).symm
      _ = (before ++ first :: inner) ++ raw :: records.drop (k + 1) := by
        rw [hsplit, List.drop_eq_getElem_cons hlt, hget]
      _ = before ++ first :: (inner ++ raw :: records.drop (k + 1)) := by simp
  have hindex : k = before.length + 1 + inner.length := by
    have hlength := congrArg List.length hsplit
    rw [List.length_take, List.length_append, List.length_cons] at hlength
    omega
  exact ⟨⟨before, first, inner, raw, _, hrecords, hindex, hinner⟩,
    isSealed_of_emits hemits _ hbegins htext⟩

/-- A message is handed over by the record at an index if and only if that record
ends a sealed span, and the message has the sum of the span as its checksum. -/
theorem emits_iff_isSealed (d : Dictionary) (records : List Bytes) (k : Nat) :
    ((∃ m, Emits d records k m) ↔ ∃ s : Span records k, s.IsSealed d) ∧
      ∀ m, Emits d records k m → ∀ s : Span records k, s.IsSealed d →
        m.trailer.checkSum = some (UInt8.ofNat (Record.total (s.first :: s.inner))) := by
  refine ⟨⟨?_, ?_⟩, ?_⟩
  · rintro ⟨m, h⟩
    exact exists_isSealed h
  · rintro ⟨s, h⟩
    obtain ⟨m, hm, -⟩ := emits_of_isSealed h
    exact ⟨m, hm⟩
  · intro m hm s h
    obtain ⟨m', hm', hsum⟩ := emits_of_isSealed h
    have heq : m = m' := by
      rw [Emits, hm'] at hm
      simpa using hm.symm
    rw [heq]
    exact hsum

end Assembler

end FixEngine
