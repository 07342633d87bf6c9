import FixEngine.Calendar.Timestamp
import FixEngine.Proofs.Calendar.Reading
import FixEngine.Proofs.Text.Utf8
import Mathlib.Data.List.TakeWhile

/-!
# Reading back times

A time is read back from its written form as the same moment, cut off after the
digits that its precision shows.  A time that was read has no digits beyond them, so
it is read back as itself.
-/

namespace FixEngine

open Calendar

/-- The precision with which a written time is read: without a point it is the usual
one. -/
def Precision.asRead : Precision → Precision
  | seconds => usual
  | precision => precision

namespace Fraction

/-- The nanoseconds that are shown, a leap second as the last of them. -/
def shown (nanos : Nat) (precision : Precision) : Nat :=
  min nanos 999999999 / 10 ^ (9 - precision.digits) * 10 ^ (9 - precision.digits)

theorem shown_lt (nanos : Nat) (precision : Precision) : shown nanos precision < 1000000000 := by
  have hle : shown nanos precision ≤ min nanos 999999999 := Nat.div_mul_le_self _ _
  omega

/-- The digits after the point are as many as the precision has. -/
theorem length_digits (nanos : Nat) {precision : Precision} (h : precision.digits ≠ 0) :
    (Numeral.padded precision.digits
      (min nanos 999999999 / Nat.pow 10 (9 - precision.digits))).length = precision.digits := by
  apply Numeral.length_padded (Nat.pos_of_ne_zero h)
  apply Nat.div_lt_of_lt_mul
  have hpow : 10 ^ (9 - precision.digits) * 10 ^ precision.digits = 1000000000 := by
    cases precision <;> rfl
  have hmin : min nanos 999999999 < 1000000000 := by omega
  exact hpow ▸ hmin

/-- A text before a fraction is cut off again, and the fraction is read as what it
shows. -/
theorem split?_append_render {base : Bytes}
    (hplain : ∀ b ∈ base, b.toNat < 0x80 ∧ b ≠ Ascii.point) (nanos : Nat)
    (precision : Precision) :
    split? (base ++ render nanos precision) =
      some ⟨chars base, base.length, shown nanos precision, precision.asRead⟩ := by
  have hbase : ∀ b ∈ base, decide (b ≠ Ascii.point) = true :=
    fun b hb => decide_eq_true (hplain b hb).2
  have hchars : Utf8.chars? base = some (chars base) :=
    Utf8.chars?_of_ascii fun b hb => (hplain b hb).1
  by_cases hdigits : precision.digits = 0
  · have hseconds : precision = .seconds := by
      cases precision <;> first | rfl | contradiction
    subst hseconds
    have htake : base.takeWhile (· ≠ Ascii.point) = base :=
      List.takeWhile_eq_self_iff.2 hbase
    have hdrop : base.dropWhile (· ≠ Ascii.point) = [] :=
      List.dropWhile_eq_nil_iff.2 hbase
    have hshown : shown nanos .seconds = 0 := by
      show min nanos 999999999 / 1000000000 * 1000000000 = 0
      omega
    rw [render, if_pos hdigits, List.append_nil, split?, htake, hdrop, hchars, hshown]
    rfl
  · have hlength := length_digits nanos hdigits
    have hread : precision.asRead = precision ∧
        Precision.ofDigits? precision.digits = some precision := by
      cases precision <;> first | exact ⟨rfl, rfl⟩ | contradiction
    generalize hfraction : Numeral.padded precision.digits
      (min nanos 999999999 / Nat.pow 10 (9 - precision.digits)) = digits at hlength
    have hnanos : nanosOf digits = shown nanos precision := by
      rw [nanosOf, hlength, ← hfraction, Numeral.value_padded]
      rfl
    have htake : (base ++ Ascii.point :: digits).takeWhile (· ≠ Ascii.point) = base := by
      rw [List.takeWhile_append_of_pos hbase]
      simp
    have hdrop : (base ++ Ascii.point :: digits).dropWhile (· ≠ Ascii.point) =
        Ascii.point :: digits := by
      rw [List.dropWhile_append_of_pos hbase]
      simp
    have hproper : (digits.isEmpty || !Numeral.allDigits digits) = false := by
      simp [← hfraction]
    rw [render, if_neg hdigits, hfraction, split?, htake, hdrop, hchars]
    simp only [Option.bind_eq_bind, Option.bind_some, hproper, hlength, hread.2, hread.1, hnanos,
      Bool.false_eq_true, if_false]
    rfl

/-- All nanoseconds are shown if there are no others than the precision has digits
for. -/
theorem shown_eq_self {nanos : Nat} {precision : Precision} (hlt : nanos < 1000000000)
    (hdvd : 10 ^ (9 - precision.digits) ∣ nanos) : shown nanos precision = nanos := by
  rw [shown, Nat.min_eq_left (by omega), Nat.div_mul_cancel hdvd]

theorem nanosOf_lt {digits : Bytes} (h : Numeral.allDigits digits = true)
    (hlength : digits.length ≤ 9) : nanosOf digits < 1000000000 := by
  have hvalue : Numeral.value digits < 10 ^ digits.length := by
    have hlt := Numeral.valueFrom_lt h 0
    rwa [Nat.zero_add, Nat.one_mul] at hlt
  calc
    nanosOf digits < 10 ^ digits.length * 10 ^ (9 - digits.length) :=
      Nat.mul_lt_mul_of_pos_right hvalue (Nat.pow_pos (by decide))
    _ = 10 ^ 9 := by rw [← Nat.pow_add, Nat.add_sub_cancel' hlength]

/-- A precision has room for the digits that it was read from. -/
theorem le_of_ofDigits? {count : Nat} {precision : Precision}
    (h : Precision.ofDigits? count = some precision) :
    count ≤ precision.digits ∧ precision.digits ≤ 9 ∧ precision.asRead = precision := by
  rw [Precision.ofDigits?] at h
  split at h
  · next hcount =>
    cases h
    exact ⟨hcount, by decide, rfl⟩
  split at h
  · next hcount =>
    cases h
    exact ⟨hcount, by decide, rfl⟩
  split at h
  · next hcount =>
    cases h
    exact ⟨hcount, by decide, rfl⟩
  · contradiction

/-- What a fraction was read as shows all its nanoseconds. -/
theorem shown_of_split? {bytes : Bytes} {s : Split} (h : split? bytes = some s) :
    shown s.nanos s.precision = s.nanos ∧ s.precision.asRead = s.precision := by
  obtain ⟨base, -, h⟩ := Option.bind_eq_some_iff.1 h
  split at h
  · cases h
    exact ⟨by simp [shown], rfl⟩
  · next digits _ =>
    split at h
    · contradiction
    next hproper =>
    obtain ⟨precision, hprecision, h⟩ := Option.bind_eq_some_iff.1 h
    cases h
    obtain ⟨hcount, hnine, hread⟩ := le_of_ofDigits? hprecision
    have hdigits : Numeral.allDigits digits = true := by
      simp only [Bool.or_eq_true, Bool.not_eq_true', not_or, Bool.not_eq_false] at hproper
      exact hproper.2
    have hdvd : 10 ^ (9 - precision.digits) ∣ nanosOf digits :=
      Nat.dvd_mul_left_of_dvd (Nat.pow_dvd_pow 10 (by omega)) _
    exact ⟨shown_eq_self (nanosOf_lt hdigits (by omega)) hdvd, hread⟩

end Fraction

/-! ### Whole times -/

namespace TimeOfDay

/-- The time with the nanoseconds that are shown. -/
def shownAt (t : TimeOfDay) (precision : Precision) : TimeOfDay where
  second := t.second
  nanos := Fraction.shown t.nanos precision
  isTime := by
    have hlt := Fraction.shown_lt t.nanos precision
    have hlast : nanosPerSecond ≤ Fraction.shown t.nanos precision → t.second % 60 = 59 :=
      fun hle => absurd hlt (Nat.not_lt.2 hle)
    exact ⟨t.isTime.1, Nat.lt_trans hlt (by decide), hlast⟩

theorem ofSecond?_shown (t : TimeOfDay) (precision : Precision) :
    ofSecond? t.second (Fraction.shown t.nanos precision) = some (t.shownAt precision) :=
  ofSecond?_eq_some_iff.2 ⟨rfl, rfl⟩

end TimeOfDay

theorem plain_padded (width n : Nat) :
    ∀ b ∈ Numeral.padded width n, b.toNat < 0x80 ∧ b ≠ Ascii.point := by
  have hdigits := Numeral.allDigits_padded width n
  intro b hb
  refine ⟨Numeral.toNat_lt_of_allDigits hdigits b hb, ?_⟩
  rintro rfl
  exact Numeral.not_mem_of_allDigits hdigits rfl hb

theorem TimeOfDay.plain_clockBytes (t : TimeOfDay) :
    ∀ b ∈ t.clockBytes, b.toNat < 0x80 ∧ b ≠ Ascii.point := by
  have hcolon : (0x3A : UInt8).toNat < 0x80 ∧ (0x3A : UInt8) ≠ Ascii.point := by decide
  rw [TimeOfDay.clockBytes, List.forall_mem_append, List.forall_mem_cons, List.forall_mem_append,
    List.forall_mem_cons]
  exact ⟨plain_padded 2 _, hcolon, plain_padded 2 _, hcolon, plain_padded 2 _⟩

theorem Date.plain_yearBytes (year : Int) :
    ∀ b ∈ yearBytes year, b.toNat < 0x80 ∧ b ≠ Ascii.point := by
  rw [yearBytes]
  split
  · exact plain_padded 4 _
  · refine List.forall_mem_cons.2 ⟨?_, plain_padded 4 _⟩
    split <;> decide

theorem Date.plain_toBytes (d : Date) : ∀ b ∈ d.toBytes, b.toNat < 0x80 ∧ b ≠ Ascii.point := by
  rw [toBytes, List.forall_mem_append, List.forall_mem_append]
  exact ⟨⟨plain_yearBytes d.year, plain_padded 2 _⟩, plain_padded 2 _⟩

/-- A date is read back from its written form. -/
theorem Date.parse?_toBytes {d : Date} (h : d.HasFourDigits) : Date.parse? d.toBytes = some d := by
  have hchars : Utf8.chars? d.toBytes = some (chars d.toBytes) :=
    Utf8.chars?_of_ascii fun b hb => (d.plain_toBytes b hb).1
  have htake := takeDate_toBytes h []
  rw [List.append_nil] at htake
  simp only [Date.parse?, length_toBytes h, hchars, htake, whole, Option.bind_eq_bind,
    Option.bind_some]
  rfl

/-- A year with a sign before it makes a date too long to be read back. -/
theorem Date.parse?_toBytes_eq_none {d : Date} (h : ¬ d.HasFourDigits) :
    Date.parse? d.toBytes = none := by
  have hlength : d.toBytes.length ≠ 8 := Nat.ne_of_gt (lt_length_toBytes h)
  simp only [Date.parse?, hlength, ne_eq, not_false_eq_true, if_true, Option.bind_eq_bind,
    Option.bind_none]

namespace TimeOnly

/-- A time of day is read back from its written form as far as that shows it. -/
theorem parse?_toBytes (t : TimeOnly) :
    parse? t.toBytes = some ⟨t.time.shownAt t.precision, t.precision.asRead⟩ := by
  have htake := t.time.takeClock_clockBytes (Fraction.shown t.time.nanos t.precision) []
  rw [List.append_nil, TimeOfDay.ofSecond?_shown, Option.map_some] at htake
  rw [parse?, toBytes, Fraction.split?_append_render t.time.plain_clockBytes]
  simp only [t.time.length_clockBytes, htake, whole, Option.bind_eq_bind, Option.bind_some]
  rfl

end TimeOnly

namespace Timestamp

/-- The bytes before the fraction are ASCII, with no point among them. -/
theorem plain_base (t : Timestamp) : ∀ b ∈ t.date.toBytes ++ Ascii.minus :: t.time.clockBytes,
    b.toNat < 0x80 ∧ b ≠ Ascii.point := by
  rw [List.forall_mem_append, List.forall_mem_cons]
  exact ⟨t.date.plain_toBytes, by decide, t.time.plain_clockBytes⟩

theorem length_base (t : Timestamp) :
    (t.date.toBytes ++ Ascii.minus :: t.time.clockBytes).length = t.date.toBytes.length + 9 := by
  rw [List.length_append, List.length_cons, t.time.length_clockBytes]

/-- A moment is read back from its written form as far as that shows it. -/
theorem parse?_toBytes {t : Timestamp} (h : t.date.HasFourDigits) :
    parse? t.toBytes = some ⟨t.date, t.time.shownAt t.precision, t.precision.asRead⟩ := by
  have hminus : Char.ofNat (UInt8.toNat Ascii.minus) = '-' := by decide
  have htake := t.time.takeClock_clockBytes (Fraction.shown t.time.nanos t.precision) []
  rw [List.append_nil, TimeOfDay.ofSecond?_shown, Option.map_some] at htake
  rw [parse?, toBytes, Fraction.split?_append_render t.plain_base]
  simp only [length_base, Date.length_toBytes h, chars_append, chars_cons, hminus,
    Date.takeDate_toBytes h, takeMark, htake, whole, Option.bind_eq_bind, Option.bind_some, if_true]
  rfl

/-- A year with a sign before it makes a moment too long to be read back. -/
theorem parse?_toBytes_eq_none {t : Timestamp} (h : ¬ t.date.HasFourDigits) :
    parse? t.toBytes = none := by
  have hlength : t.date.toBytes.length + 9 ≠ 17 :=
    Nat.ne_of_gt (Nat.add_lt_add_right (Date.lt_length_toBytes h) 9)
  rw [parse?, toBytes, Fraction.split?_append_render t.plain_base]
  simp only [length_base, hlength, ne_eq, not_false_eq_true, if_true, Option.bind_eq_bind,
    Option.bind_some, Option.bind_none]

end Timestamp

/-! ### Times that were read -/

theorem TimeOfDay.nanos_of_ofClock? {hour minute second nanos : Nat} {t : TimeOfDay}
    (h : ofClock? hour minute second nanos = some t) : t.nanos = nanos := by
  rw [ofClock?] at h
  split at h
  · exact (ofSecond?_eq_some_iff.1 h).2
  · contradiction

theorem TimeOfDay.nanos_of_takeClock {nanos : Nat} {text : List Char} {t : TimeOfDay}
    {rest : List Char} (h : takeClock nanos text = some (t, rest)) : t.nanos = nanos := by
  simp only [takeClock, Option.bind_eq_bind, Option.bind_eq_some_iff] at h
  obtain ⟨hour, -, _, -, minute, -, _, -, second, -, time, htime, h⟩ := h
  cases h
  exact nanos_of_ofClock? htime

theorem Calendar.eq_of_whole {α : Type} {read : α × List Char} {value : α}
    (h : whole read = some value) : read = (value, []) := by
  obtain ⟨value', rest⟩ := read
  cases rest with
  | nil =>
    cases h
    rfl
  | cons c rest => contradiction

theorem TimeOfDay.shownAt_eq_self {t : TimeOfDay} {precision : Precision}
    (h : Fraction.shown t.nanos precision = t.nanos) : t.shownAt precision = t := by
  simp only [shownAt, h]

/-- A time of day that was read is read back from its written form. -/
theorem TimeOnly.parse?_toBytes_of_parse? {bytes : Bytes} {t : TimeOnly}
    (h : parse? bytes = some t) : parse? t.toBytes = some t := by
  simp only [parse?, Option.bind_eq_bind] at h
  obtain ⟨s, hsplit, h⟩ := Option.bind_eq_some_iff.1 h
  split at h
  · contradiction
  obtain ⟨read, hread, h⟩ := Option.bind_eq_some_iff.1 h
  obtain ⟨time, hwhole, h⟩ := Option.bind_eq_some_iff.1 h
  cases h
  obtain ⟨hshown, hprecision⟩ := Fraction.shown_of_split? hsplit
  rw [Calendar.eq_of_whole hwhole] at hread
  rw [← TimeOfDay.nanos_of_takeClock hread] at hshown
  rw [parse?_toBytes, hprecision, TimeOfDay.shownAt_eq_self hshown]

/-- A moment that was read, in a year of four digits, is read back from its written
form. -/
theorem Timestamp.parse?_toBytes_of_parse? {bytes : Bytes} {t : Timestamp}
    (h : parse? bytes = some t) (hyear : t.date.HasFourDigits) : parse? t.toBytes = some t := by
  simp only [parse?, Option.bind_eq_bind] at h
  obtain ⟨s, hsplit, h⟩ := Option.bind_eq_some_iff.1 h
  split at h
  · contradiction
  obtain ⟨⟨date, rest⟩, -, h⟩ := Option.bind_eq_some_iff.1 h
  obtain ⟨rest', -, h⟩ := Option.bind_eq_some_iff.1 h
  obtain ⟨read, hread, h⟩ := Option.bind_eq_some_iff.1 h
  obtain ⟨time, hwhole, h⟩ := Option.bind_eq_some_iff.1 h
  cases h
  obtain ⟨hshown, hprecision⟩ := Fraction.shown_of_split? hsplit
  rw [Calendar.eq_of_whole hwhole] at hread
  rw [← TimeOfDay.nanos_of_takeClock hread] at hshown
  rw [parse?_toBytes hyear, hprecision, TimeOfDay.shownAt_eq_self hshown]

end FixEngine
