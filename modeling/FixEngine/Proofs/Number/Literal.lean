import FixEngine.Number.Decimal
import FixEngine.Proofs.Number.Numeral
import FixEngine.Proofs.Outcome
import Mathlib.Data.List.TakeWhile

/-!
# Decimal literals

A literal is a sign, if there is one, and digits with at most one point among them.  It
is read as the integer that its digits spell, with as many places as stand after the
point.  Further digits make neither of them smaller, so the reader, which looks at both
after every digit, refuses as out of range exactly the texts whose digits lead there
before the first byte that may not stand in a literal.
-/

namespace FixEngine.Decimal

open Numeral

variable {bytes rest : Bytes} {negative : Bool}

/-! ### What a literal consists of -/

/-- Digits with at most one point among them. -/
structure Magnitude where
  whole : Bytes
  /-- The digits after the point, if there is a point. -/
  fraction : Option Bytes
  allDigits_whole : allDigits whole = true
  allDigits_fraction : allDigits (fraction.getD []) = true

namespace Magnitude

def toBytes (m : Magnitude) : Bytes :=
  match m.fraction with
  | none => m.whole
  | some digits => m.whole ++ Ascii.point :: digits

/-- The digits without the point. -/
def digits (m : Magnitude) : Bytes := m.whole ++ m.fraction.getD []

/-- How many digits stand after the point. -/
def places (m : Magnitude) : Nat := (m.fraction.getD []).length

/-- The integer that all digits spell after a sign. -/
def number (negative : Bool) (m : Magnitude) : Int := signed negative (value m.digits)

/-- A decimal has room for the integer and for the places. -/
def Fits (negative : Bool) (m : Magnitude) : Prop :=
  fitsInt64 (m.number negative) = true ∧ m.places ≤ 255

instance (negative : Bool) (m : Magnitude) : Decidable (m.Fits negative) :=
  inferInstanceAs (Decidable (_ ∧ _))

/-- What follows begins with no further digit and with no first point. -/
def StopsAt (m : Magnitude) : Bytes → Prop
  | [] => True
  | b :: _ => Ascii.isDigit b = false ∧ (b = Ascii.point → m.fraction.isSome = true)

end Magnitude

/-- The second text is the first one without the sign that it may begin with. -/
inductive IsSigned : Bytes → Bool → Bytes → Prop where
  | minus (rest : Bytes) : IsSigned (Ascii.minus :: rest) true rest
  | plus (rest : Bytes) : IsSigned (Ascii.plus :: rest) false rest
  | plain {rest : Bytes} : rest.head? ≠ some Ascii.minus → rest.head? ≠ some Ascii.plus →
    IsSigned rest false rest

/-- The text is cut after its sign and before the first byte that may not stand in a
literal. -/
structure IsCut (bytes : Bytes) (negative : Bool) (m : Magnitude) (rest : Bytes) : Prop where
  signed : IsSigned bytes negative (m.toBytes ++ rest)
  stops : m.StopsAt rest

/-- The text is a sign, if there is one, and digits with at most one point among them. -/
structure IsLiteral (bytes : Bytes) (negative : Bool) (m : Magnitude) : Prop where
  signed : IsSigned bytes negative m.toBytes
  ne_nil : m.digits ≠ []

theorem IsLiteral.isCut {m : Magnitude} (h : IsLiteral bytes negative m) :
    IsCut bytes negative m [] := by
  refine ⟨?_, trivial⟩
  rw [List.append_nil]
  exact h.signed

theorem IsCut.isLiteral {m : Magnitude} (h : IsCut bytes negative m []) (hne : m.digits ≠ []) :
    IsLiteral bytes negative m := by
  refine ⟨?_, hne⟩
  rw [← List.append_nil m.toBytes]
  exact h.signed

/-! ### Every text is cut somewhere -/

theorem exists_isSigned (bytes : Bytes) : ∃ negative rest, IsSigned bytes negative rest := by
  cases bytes with
  | nil => exact ⟨false, [], .plain (by simp) (by simp)⟩
  | cons b rest =>
    by_cases hminus : b = Ascii.minus
    · exact ⟨true, rest, hminus ▸ .minus rest⟩
    by_cases hplus : b = Ascii.plus
    · exact ⟨false, rest, hplus ▸ .plus rest⟩
    · exact ⟨false, b :: rest, .plain (by simpa using hminus) (by simpa using hplus)⟩

theorem allDigits_takeWhile (bytes : Bytes) : allDigits (bytes.takeWhile Ascii.isDigit) = true :=
  List.all_eq_true.2 fun _ hb => List.mem_takeWhile_imp hb

theorem isDigit_eq_false_of_dropWhile {b : UInt8}
    (h : bytes.dropWhile Ascii.isDigit = b :: rest) : Ascii.isDigit b = false := by
  have hhead := List.head?_dropWhile_not Ascii.isDigit bytes
  rw [h] at hhead
  simpa using hhead

/-- The digits at the front of a text, and those after a point that follows them. -/
theorem exists_magnitude (bytes : Bytes) :
    ∃ (m : Magnitude) (rest : Bytes), bytes = m.toBytes ++ rest ∧ m.StopsAt rest := by
  have hwhole := allDigits_takeWhile bytes
  have hbytes : bytes.takeWhile Ascii.isDigit ++ bytes.dropWhile Ascii.isDigit = bytes :=
    List.takeWhile_append_dropWhile
  cases hdrop : bytes.dropWhile Ascii.isDigit with
  | nil =>
    rw [hdrop] at hbytes
    exact ⟨⟨_, none, hwhole, rfl⟩, [], hbytes.symm, trivial⟩
  | cons b more =>
    have hb := isDigit_eq_false_of_dropWhile hdrop
    rw [hdrop] at hbytes
    by_cases hpoint : b = Ascii.point
    · subst hpoint
      have hmore : more.takeWhile Ascii.isDigit ++ more.dropWhile Ascii.isDigit = more :=
        List.takeWhile_append_dropWhile
      refine ⟨⟨_, some _, hwhole, allDigits_takeWhile more⟩, more.dropWhile Ascii.isDigit, ?_, ?_⟩
      · rw [Magnitude.toBytes, List.append_assoc, List.cons_append, hmore, hbytes]
      · cases hrest : more.dropWhile Ascii.isDigit with
        | nil => trivial
        | cons c rest => exact ⟨isDigit_eq_false_of_dropWhile hrest, fun _ => rfl⟩
    · exact ⟨⟨_, none, hwhole, rfl⟩, b :: more, hbytes.symm, hb, fun h => absurd h hpoint⟩

theorem exists_isCut (bytes : Bytes) : ∃ negative m rest, IsCut bytes negative m rest := by
  obtain ⟨negative, unsigned, hsigned⟩ := exists_isSigned bytes
  obtain ⟨m, rest, rfl, hstops⟩ := exists_magnitude unsigned
  exact ⟨negative, m, rest, hsigned, hstops⟩

/-! ### Reading digits -/

/-- Digits are read as what they denote, and after the point they count as places, unless
they lead out of range. -/
theorem foldlM_step {digits : Bytes} (hdigits : allDigits digits = true) {acc places : Nat}
    (hfits : fitsInt64 (signed negative acc) = true) (hplaces : places ≤ 255) (past has : Bool) :
    digits.foldlM (Reading.step negative) ⟨signed negative acc, places, past, has⟩ =
      if fitsInt64 (signed negative (valueFrom acc digits)) = true ∧
          places + (if past then digits.length else 0) ≤ 255 then
        .ok ⟨signed negative (valueFrom acc digits), places + (if past then digits.length else 0),
          past, has || !digits.isEmpty⟩
      else .error .outOfRange := by
  induction digits generalizing acc places has with
  | nil => simp [hfits, hplaces, pure, Except.pure]
  | cons b digits ih =>
    obtain ⟨hb, hrest⟩ : Ascii.isDigit b = true ∧ allDigits digits = true := by
      simpa only [allDigits, List.all_cons, Bool.and_eq_true] using hdigits
    have hlength : places + (if past then (b :: digits).length else 0) =
        (if past then places + 1 else places) + (if past then digits.length else 0) := by
      cases past <;> simp
      omega
    rw [valueFrom_cons, hlength, List.foldlM_cons, Reading.step, if_pos hb]
    simp only [shift_signed, Bool.and_eq_true, decide_eq_true_eq]
    by_cases hnext : fitsInt64 (signed negative (acc * 10 + Ascii.digitValue b)) = true ∧
        (if past then places + 1 else places) ≤ 255
    · rw [if_pos hnext]
      refine (ih hrest hnext.1 hnext.2 true).trans ?_
      simp
    · -- Both have been exceeded for good.
      rw [if_neg hnext, if_neg]
      · rfl
      · rintro ⟨hall, hlast⟩
        exact hnext ⟨fitsInt64_signed_of_le (le_valueFrom _ digits) hall, by omega⟩

namespace Magnitude

/-- What has been read after the magnitude. -/
def reading (negative : Bool) (m : Magnitude) : Reading :=
  ⟨m.number negative, m.places, m.fraction.isSome, !m.digits.isEmpty⟩

theorem foldlM_toBytes (negative : Bool) (m : Magnitude) :
    m.toBytes.foldlM (Reading.step negative) Reading.start =
      if m.Fits negative then .ok (m.reading negative) else .error .outOfRange := by
  obtain ⟨whole, fraction, hwhole, hfraction⟩ := m
  have hzero : fitsInt64 (signed negative 0) = true := by cases negative <;> rfl
  have hstart : Reading.start = ⟨signed negative 0, 0, false, false⟩ := by cases negative <;> rfl
  have hfirst := foldlM_step hwhole hzero (Nat.zero_le 255) false false
  cases fraction with
  | none =>
    rw [hstart, toBytes, hfirst]
    simp [Fits, reading, number, places, digits, valueFrom_zero]
  | some right =>
    rw [hstart, toBytes, List.foldlM_append, hfirst]
    simp only [Fits, reading, number, places, digits, Option.getD_some, Option.isSome_some,
      ← valueFrom_zero, valueFrom_append]
    by_cases hleft : fitsInt64 (signed negative (valueFrom 0 whole)) = true
    · rw [if_pos ⟨hleft, by simp⟩]
      have hdigit : (!(whole ++ right).isEmpty) = (!whole.isEmpty || !right.isEmpty) := by
        cases whole <;> simp
      rw [hdigit]
      refine (foldlM_step hfraction hleft (Nat.zero_le 255) true _).trans ?_
      simp
    · rw [if_neg fun h => hleft h.1, if_neg]
      · rfl
      · exact fun h => hleft (fitsInt64_signed_of_le (le_valueFrom _ right) h.1)

/-- The decimal that is read, if it has room for the integer and for the places. -/
def toDecimal (negative : Bool) (m : Magnitude) : Decimal :=
  ⟨Int64.ofInt (m.number negative), UInt8.ofNat m.places⟩

end Magnitude

/-- A byte that may not follow is refused. -/
theorem foldlM_of_stopsAt {m : Magnitude} {b : UInt8} (h : m.StopsAt (b :: rest)) :
    (b :: rest).foldlM (Reading.step negative) (m.reading negative) = .error .malformed := by
  have hstep : Reading.step negative (m.reading negative) b = .error .malformed := by
    have hpoint : (decide (b = Ascii.point) && !m.fraction.isSome) = false := by
      simpa only [Bool.and_eq_false_imp, decide_eq_true_eq, Bool.not_eq_false'] using h.2
    rw [Reading.step, if_neg (by simp [h.1]), Magnitude.reading, hpoint]
    rfl
  rw [List.foldlM_cons, hstep]
  rfl

theorem readMagnitude_append {m : Magnitude} (h : m.StopsAt rest) :
    readMagnitude negative (m.toBytes ++ rest) =
      if m.Fits negative then
        if rest = [] ∧ m.digits ≠ [] then .ok (m.toDecimal negative) else .error .malformed
      else .error .outOfRange := by
  rw [readMagnitude, List.foldlM_append, Magnitude.foldlM_toBytes]
  by_cases hfits : m.Fits negative
  · rw [if_pos hfits, if_pos hfits]
    show (rest.foldlM (Reading.step negative) (m.reading negative) >>= _) = _
    cases rest with
    | nil =>
      show (if (!m.digits.isEmpty) = true then Except.ok (m.toDecimal negative) else _) = _
      simp
    | cons b rest =>
      rw [foldlM_of_stopsAt h, if_neg fun hnil => List.cons_ne_nil b rest hnil.1]
      rfl
  · rw [if_neg hfits, if_neg hfits]
    rfl

/-! ### Reading a text -/

theorem read_of_isSigned (h : IsSigned bytes negative rest) :
    read bytes = readMagnitude negative rest := by
  cases h with
  | minus => rw [read, if_pos rfl]
  | plus => rw [read, if_neg (by decide), if_pos rfl]
  | plain hminus hplus =>
    cases bytes with
    | nil => rfl
    | cons b rest => rw [read, if_neg (by simpa using hminus), if_neg (by simpa using hplus)]

/-- What is read of a text is decided by the digits before its cut and by whether something
follows them. -/
theorem parse_of_isCut {m : Magnitude} (h : IsCut bytes negative m rest) :
    parse bytes =
      if m.Fits negative then
        if rest = [] ∧ m.digits ≠ [] then .ok (m.toDecimal negative)
        else .error (.invalidLiteral (Utf8.decodeLossy bytes))
      else .error (.overflow (Utf8.decodeLossy bytes)) := by
  rw [parse, read_of_isSigned h.signed, readMagnitude_append h.stops]
  by_cases hfits : m.Fits negative
  · by_cases hends : rest = [] ∧ m.digits ≠ []
    · simp only [if_pos hfits, if_pos hends]
    · simp only [if_pos hfits, if_neg hends]
  · simp only [if_neg hfits]

theorem parse_of_isLiteral {m : Magnitude} (h : IsLiteral bytes negative m) :
    parse bytes = if m.Fits negative then .ok (m.toDecimal negative)
      else .error (.overflow (Utf8.decodeLossy bytes)) := by
  have hends : ([] : Bytes) = [] ∧ m.digits ≠ [] := ⟨rfl, h.ne_nil⟩
  rw [parse_of_isCut h.isCut, if_pos hends]

theorem parse_of_not_isLiteral {m : Magnitude} (h : IsCut bytes negative m rest)
    (hnone : ¬ ∃ negative m, IsLiteral bytes negative m) :
    parse bytes = if m.Fits negative then .error (.invalidLiteral (Utf8.decodeLossy bytes))
      else .error (.overflow (Utf8.decodeLossy bytes)) := by
  have hends : ¬ (rest = [] ∧ m.digits ≠ []) := by
    rintro ⟨rfl, hne⟩
    exact hnone ⟨negative, m, h.isLiteral hne⟩
  rw [parse_of_isCut h, if_neg hends]

/-- A literal is read as the integer that its digits spell, with the places that stand after
its point. -/
theorem parse_eq_ok_iff {d : Decimal} :
    parse bytes = .ok d ↔ ∃ negative m, IsLiteral bytes negative m ∧
      d.scaled.toInt = m.number negative ∧ d.scale.toNat = m.places := by
  constructor
  · intro h
    obtain ⟨negative, m, rest, hcut⟩ := exists_isCut bytes
    rw [parse_of_isCut hcut] at h
    split at h
    · next hfits =>
      split at h
      · next hends =>
        obtain ⟨rfl, hne⟩ := hends
        cases h
        exact ⟨negative, m, hcut.isLiteral hne, toInt_ofInt_of_fits hfits.1,
          UInt8.toNat_ofNat_of_lt' (Nat.lt_succ_of_le hfits.2)⟩
      · contradiction
    · contradiction
  · rintro ⟨negative, m, hliteral, hscaled, hscale⟩
    have hfits : m.Fits negative := by
      rw [Magnitude.Fits, ← hscaled, ← hscale]
      exact ⟨fitsInt64_toInt d.scaled, Nat.le_of_lt_succ d.scale.toNat_lt⟩
    rw [parse_of_isLiteral hliteral, if_pos hfits, Magnitude.toDecimal, ← hscaled, ← hscale,
      Int64.ofInt_toInt, UInt8.ofNat_toNat]

/-- A text is read if and only if it is a literal in range, and then as what the literal
spells.  A literal out of range is refused as that.  Of any other text the digits before its
cut decide: it is refused for its form if they are in range. -/
theorem parse_follows_grammar (bytes : Bytes) :
    (∀ d, parse bytes = .ok d ↔ ∃ negative m, IsLiteral bytes negative m ∧
      d.scaled.toInt = m.number negative ∧ d.scale.toNat = m.places) ∧
    (∀ negative m, IsLiteral bytes negative m →
      (parse bytes = .error (.overflow (Utf8.decodeLossy bytes)) ↔ ¬ m.Fits negative)) ∧
    (∀ negative m rest, IsCut bytes negative m rest →
      (¬ ∃ negative m, IsLiteral bytes negative m) →
      (parse bytes = .error (.invalidLiteral (Utf8.decodeLossy bytes)) ↔ m.Fits negative) ∧
      (parse bytes = .error (.overflow (Utf8.decodeLossy bytes)) ↔ ¬ m.Fits negative)) ∧
    ∃ negative m rest, IsCut bytes negative m rest := by
  refine ⟨fun _ => parse_eq_ok_iff, fun negative m h => ?_, fun negative m rest h hnone => ?_,
    exists_isCut bytes⟩
  · rw [parse_of_isLiteral h]
    split <;> simp [*]
  · rw [parse_of_not_isLiteral h hnone]
    split <;> simp [*]

/-- The least integer is read with its point anywhere, the one below it is out of range, and
a second point is no part of a literal. -/
theorem parse_follows_grammar_sample :
    parse (Utf8.encode "-9223372036854775.808") = .ok ⟨Int64.minValue, 3⟩ ∧
    (∃ m, IsLiteral (Utf8.encode "-9223372036854775809") true m ∧ ¬ m.Fits true ∧
      parse (Utf8.encode "-9223372036854775809") =
        .error (.overflow (Utf8.decodeLossy (Utf8.encode "-9223372036854775809")))) ∧
    ∃ m, IsCut (Utf8.encode "1.2.3") false m (Utf8.encode ".3") ∧
      (¬ ∃ negative m, IsLiteral (Utf8.encode "1.2.3") negative m) ∧
      parse (Utf8.encode "1.2.3") =
        .error (.invalidLiteral (Utf8.decodeLossy (Utf8.encode "1.2.3"))) := by
  refine ⟨?_, ?_, ?_⟩
  · let m : Magnitude := ⟨Utf8.encode "9223372036854775", some (Utf8.encode "808"), rfl, rfl⟩
    have hliteral : IsLiteral (Utf8.encode "-9223372036854775.808") true m :=
      ⟨.minus m.toBytes, by decide⟩
    exact ((parse_follows_grammar _).1 _).2 ⟨true, m, hliteral, rfl, rfl⟩
  · let m : Magnitude := ⟨Utf8.encode "9223372036854775809", none, rfl, rfl⟩
    have hliteral : IsLiteral (Utf8.encode "-9223372036854775809") true m :=
      ⟨.minus m.toBytes, by decide⟩
    have hfits : ¬ m.Fits true := by decide
    exact ⟨m, hliteral, hfits, ((parse_follows_grammar _).2.1 true m hliteral).2 hfits⟩
  · let m : Magnitude := ⟨Utf8.encode "1", some (Utf8.encode "2"), rfl, rfl⟩
    have hcut : IsCut (Utf8.encode "1.2.3") false m (Utf8.encode ".3") :=
      ⟨.plain (by decide) (by decide), rfl, fun _ => rfl⟩
    have hnone : ¬ ∃ negative m, IsLiteral (Utf8.encode "1.2.3") negative m := by
      rintro ⟨negative, m, hliteral⟩
      have hparse := parse_of_isLiteral hliteral
      split at hparse <;> cases hparse
    have hfits : m.Fits false := by decide
    exact ⟨m, hcut, hnone, (((parse_follows_grammar _).2.2.1 false m _ hcut hnone).1).2 hfits⟩

end FixEngine.Decimal
