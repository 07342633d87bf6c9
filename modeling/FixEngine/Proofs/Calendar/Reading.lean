import FixEngine.Calendar.Reading
import FixEngine.Proofs.Number.Numeral
import Mathlib.Data.List.TakeWhile

/-!
# Reading back dates and clock times

Numbers that are filled up with zeros to their width are read back whatever follows
them, and so are the dates and clock times that are written with them.  A leap second
is read back as the last second of its minute.
-/

namespace FixEngine.Calendar

/-- The characters of ASCII bytes. -/
def chars (bytes : Bytes) : List Char := bytes.map fun b => Char.ofNat b.toNat

@[simp]
theorem chars_append (left right : Bytes) : chars (left ++ right) = chars left ++ chars right :=
  List.map_append

@[simp]
theorem chars_cons (b : UInt8) (rest : Bytes) :
    chars (b :: rest) = Char.ofNat b.toNat :: chars rest := rfl

@[simp]
theorem chars_nil : chars [] = [] := rfl

@[simp]
theorem length_chars (bytes : Bytes) : (chars bytes).length = bytes.length :=
  List.length_map _

/-! ### Digits -/

theorem toNat_ofNat_of_isDigit {b : UInt8} (h : Ascii.isDigit b = true) :
    (Char.ofNat b.toNat).toNat = b.toNat := by
  have hdigit := (Ascii.isDigit_iff b).1 h
  have hvalid : b.toNat.isValidChar := .inl (by omega)
  rw [Char.ofNat, dif_pos hvalid]
  rfl

theorem isDigitChar_ofNat {b : UInt8} (h : Ascii.isDigit b = true) :
    isDigitChar (Char.ofNat b.toNat) = true := by
  have hdigit := (Ascii.isDigit_iff b).1 h
  have hnat : (Char.ofNat b.toNat).val.toNat = b.toNat := toNat_ofNat_of_isDigit h
  simp only [isDigitChar, Char.le_def, UInt32.le_iff_toNat_le, Bool.and_eq_true, decide_eq_true_eq,
    hnat]
  exact hdigit

/-- A digit is neither blank nor a sign. -/
theorem ofNat_of_isDigit {b : UInt8} (h : Ascii.isDigit b = true) :
    isBlank (Char.ofNat b.toNat) = false ∧ Char.ofNat b.toNat ≠ '-' ∧ Char.ofNat b.toNat ≠ '+' := by
  have hdigit := (Ascii.isDigit_iff b).1 h
  have hnat := toNat_ofNat_of_isDigit h
  refine ⟨?_, ?_, ?_⟩
  · simp only [isBlank, hnat]
    simp
    omega
  · intro heq
    rw [heq] at hnat
    simp at hnat
    omega
  · intro heq
    rw [heq] at hnat
    simp at hnat
    omega

theorem numberOf_chars {digits : Bytes} (h : Numeral.allDigits digits = true) :
    numberOf (chars digits) = Numeral.value digits := by
  have hfrom (acc : Nat) :
      (chars digits).foldl (fun acc c => acc * 10 + (c.toNat - 48)) acc =
        Numeral.valueFrom acc digits := by
    induction digits generalizing acc with
    | nil => rfl
    | cons b rest ih =>
      obtain ⟨hb, hrest⟩ : Ascii.isDigit b = true ∧ Numeral.allDigits rest = true := by
        simpa only [Numeral.allDigits, List.all_cons, Bool.and_eq_true] using h
      rw [chars_cons, List.foldl_cons, toNat_ofNat_of_isDigit hb, Numeral.valueFrom_cons]
      exact ih hrest _
  exact hfrom 0

theorem takeWhile_chars {digits : Bytes} (h : Numeral.allDigits digits = true) :
    (chars digits).takeWhile isDigitChar = chars digits := by
  rw [List.takeWhile_eq_self_iff]
  intro c hc
  obtain ⟨b, hb, rfl⟩ := List.mem_map.1 hc
  exact isDigitChar_ofNat (List.all_eq_true.1 h b hb)

/-- A number of a width is read whatever follows it. -/
theorem takeShort_padded {width n : Nat} (hwidth : 0 < width) (h : n < 10 ^ width)
    (rest : List Char) :
    takeShort width (chars (Numeral.padded width n) ++ rest) = some (n, rest) := by
  have hlength : (chars (Numeral.padded width n)).length = width := by
    rw [length_chars, Numeral.length_padded hwidth h]
  have hdigits := Numeral.allDigits_padded width n
  have hne : (chars (Numeral.padded width n)).isEmpty = false := by
    simp [chars]
  rw [takeShort, List.take_left' hlength, takeWhile_chars hdigits, hne, numberOf_chars hdigits,
    Numeral.value_padded, List.drop_left]
  rfl

/-- A padded number begins with a digit. -/
theorem exists_padded_eq_cons (width n : Nat) :
    ∃ b rest, Numeral.padded width n = b :: rest ∧ Ascii.isDigit b = true := by
  cases hbytes : Numeral.padded width n with
  | nil => exact absurd hbytes (Numeral.padded_ne_nil width n)
  | cons b rest =>
    have hdigits := Numeral.allDigits_padded width n
    rw [hbytes] at hdigits
    exact ⟨b, rest, rfl, List.all_eq_true.1 hdigits b List.mem_cons_self⟩

theorem dropWhile_padded (width n : Nat) (rest : List Char) :
    (chars (Numeral.padded width n) ++ rest).dropWhile isBlank =
      chars (Numeral.padded width n) ++ rest := by
  obtain ⟨b, more, hbytes, hb⟩ := exists_padded_eq_cons width n
  rw [hbytes, chars_cons, List.cons_append, List.dropWhile_cons, (ofNat_of_isDigit hb).1]
  rfl

/-- Two digits are read back. -/
theorem takePair_padded {n : Nat} (h : n < 100) (rest : List Char) :
    takePair (chars (Numeral.padded 2 n) ++ rest) = some (n, rest) := by
  rw [takePair, dropWhile_padded, takeShort_padded (by decide) h]

/-- The four digits of a year are read back. -/
theorem takeYear_padded {n : Nat} (h : n < 10000) (rest : List Char) :
    takeYear (chars (Numeral.padded 4 n) ++ rest) = some ((n : Int), rest) := by
  have hshort := takeShort_padded (show 0 < 4 by decide) h rest
  rw [takeYear, dropWhile_padded]
  split
  · next more heq =>
    obtain ⟨b, digits, hbytes, hb⟩ := exists_padded_eq_cons 4 n
    rw [hbytes] at heq
    exact absurd (List.cons.inj heq).1 (ofNat_of_isDigit hb).2.1
  · next more heq =>
    obtain ⟨b, digits, hbytes, hb⟩ := exists_padded_eq_cons 4 n
    rw [hbytes] at heq
    exact absurd (List.cons.inj heq).1 (ofNat_of_isDigit hb).2.2
  · rw [hshort]
    rfl

/-! ### Dates -/

theorem daysInMonth_le (year : Int) (month : Nat) : daysInMonth year month ≤ 31 := by
  unfold daysInMonth
  split
  all_goals first | decide | (split <;> decide)

/-- A month with a day in it is one of twelve. -/
theorem le_of_isDate {year : Int} {month day : Nat} (h : IsDate year month day) :
    month ≤ 12 ∧ day ≤ 31 := by
  obtain ⟨-, -, hpos, hday⟩ := h
  refine ⟨?_, Nat.le_trans hday (daysInMonth_le year month)⟩
  by_contra hmonth
  have hnone : daysInMonth year month = 0 := by
    unfold daysInMonth
    split
    all_goals first | rfl | omega
  omega

end FixEngine.Calendar

namespace FixEngine

/-- The year is written with four digits and no sign. -/
def Date.HasFourDigits (d : Date) : Prop := 0 ≤ d.year ∧ d.year ≤ 9999

instance (d : Date) : Decidable d.HasFourDigits :=
  inferInstanceAs (Decidable (0 ≤ d.year ∧ d.year ≤ 9999))

open Calendar

namespace Date

variable {d : Date}

theorem ofParts?_self (d : Date) : ofParts? d.year d.month d.day = some d := by
  rw [ofParts?, dif_pos d.isDate]

theorem ofParts?_eq_some_iff {year : Int} {month day : Nat} :
    ofParts? year month day = some d ↔ year = d.year ∧ month = d.month ∧ day = d.day := by
  constructor
  · intro h
    rw [ofParts?] at h
    split at h
    · cases h
      exact ⟨rfl, rfl, rfl⟩
    · contradiction
  · rintro ⟨rfl, rfl, rfl⟩
    exact d.ofParts?_self

theorem toBytes_of_hasFourDigits (h : d.HasFourDigits) :
    d.toBytes = Numeral.padded 4 d.year.toNat ++ Numeral.padded 2 d.month ++
      Numeral.padded 2 d.day := by
  have hyear : 0 ≤ d.year ∧ d.year ≤ 9999 := h
  rw [toBytes, yearBytes, if_pos hyear]

theorem length_toBytes (h : d.HasFourDigits) : d.toBytes.length = 8 := by
  obtain ⟨hmonth, hday⟩ := le_of_isDate d.isDate
  have hlow : 0 ≤ d.year := h.1
  have hhigh : d.year ≤ 9999 := h.2
  rw [toBytes_of_hasFourDigits h, List.length_append, List.length_append,
    Numeral.length_padded (by decide) (by omega), Numeral.length_padded (by decide) (by omega),
    Numeral.length_padded (by decide) (by omega)]

/-- The sign of any other year makes the date longer. -/
theorem lt_length_toBytes (h : ¬ d.HasFourDigits) : 8 < d.toBytes.length := by
  have hyear : ¬ (0 ≤ d.year ∧ d.year ≤ 9999) := h
  have hdigits := Numeral.le_length_padded 4 d.year.natAbs
  have hmonth := Numeral.le_length_padded 2 d.month
  have hday := Numeral.le_length_padded 2 d.day
  rw [toBytes, yearBytes, if_neg hyear, List.length_append, List.length_append, List.length_cons]
  omega

/-- A date is read back whatever follows it. -/
theorem takeDate_toBytes (h : d.HasFourDigits) (rest : List Char) :
    takeDate (chars d.toBytes ++ rest) = some (d, rest) := by
  obtain ⟨hmonth, hday⟩ := le_of_isDate d.isDate
  have hlow : 0 ≤ d.year := h.1
  have hhigh : d.year ≤ 9999 := h.2
  have hyear : ((d.year.toNat : Nat) : Int) = d.year := Int.toNat_of_nonneg hlow
  rw [toBytes_of_hasFourDigits h, chars_append, chars_append, List.append_assoc,
    List.append_assoc]
  simp only [takeDate, takeYear_padded (show d.year.toNat < 10000 by omega),
    takePair_padded (show d.month < 100 by omega), takePair_padded (show d.day < 100 by omega),
    Option.bind_eq_bind, Option.bind_some, hyear, ofParts?_self]
  rfl

end Date

/-! ### Clock times -/

namespace TimeOfDay

theorem ofSecond?_eq_some_iff {second nanos : Nat} {t : TimeOfDay} :
    ofSecond? second nanos = some t ↔ t.second = second ∧ t.nanos = nanos := by
  rw [ofSecond?]
  constructor
  · intro h
    split at h
    · cases h
      exact ⟨rfl, rfl⟩
    · contradiction
  · rintro ⟨rfl, rfl⟩
    rw [dif_pos t.isTime]

/-- The time with other nanoseconds. -/
theorem ofClock?_self (t : TimeOfDay) (nanos : Nat) :
    ofClock? t.hour t.minute t.clockSecond nanos = ofSecond? t.second nanos := by
  obtain ⟨second, nanos', hsecond, hnanos, hleap⟩ := t
  have hday : second < 86400 := hsecond
  have htwice : nanos' < 2 * 1000000000 := hnanos
  have hlast : 1000000000 ≤ nanos' → second % 60 = 59 := hleap
  have hclock : second / 3600 < 24 ∧ second / 60 % 60 < 60 ∧
      second % 60 + nanos' / 1000000000 ≤ 60 := by omega
  have hback : second / 3600 * 3600 + second / 60 % 60 * 60 +
      min (second % 60 + nanos' / 1000000000) 59 = second := by omega
  show (if second / 3600 < 24 ∧ second / 60 % 60 < 60 ∧
    second % 60 + nanos' / 1000000000 ≤ 60 then
      ofSecond? (second / 3600 * 3600 + second / 60 % 60 * 60 +
        min (second % 60 + nanos' / 1000000000) 59) nanos
    else none) = ofSecond? second nanos
  rw [if_pos hclock, hback]

theorem chars_clockBytes (t : TimeOfDay) (rest : List Char) :
    chars t.clockBytes ++ rest =
      chars (Numeral.padded 2 t.hour) ++ (':' :: (chars (Numeral.padded 2 t.minute) ++
        (':' :: (chars (Numeral.padded 2 t.clockSecond) ++ rest)))) := by
  have hcolon : Char.ofNat (UInt8.toNat 0x3A) = ':' := by decide
  simp only [clockBytes, chars_append, chars_cons, hcolon, List.append_assoc, List.cons_append]

theorem lt_hundred (t : TimeOfDay) : t.hour < 100 ∧ t.minute < 100 ∧ t.clockSecond < 100 := by
  obtain ⟨second, nanos, hsecond, hnanos, -⟩ := t
  have hday : second < 86400 := hsecond
  have htwice : nanos < 2 * 1000000000 := hnanos
  show second / 3600 < 100 ∧ second / 60 % 60 < 100 ∧ second % 60 + nanos / 1000000000 < 100
  omega

theorem length_clockBytes (t : TimeOfDay) : t.clockBytes.length = 8 := by
  obtain ⟨hhour, hminute, hsecond⟩ := t.lt_hundred
  simp only [clockBytes, List.length_append, List.length_cons,
    Numeral.length_padded (show 0 < 2 by decide) (show t.hour < 10 ^ 2 from hhour),
    Numeral.length_padded (show 0 < 2 by decide) (show t.minute < 10 ^ 2 from hminute),
    Numeral.length_padded (show 0 < 2 by decide) (show t.clockSecond < 10 ^ 2 from hsecond)]

/-- A clock time is read back whatever follows it, with the nanoseconds that it is
given. -/
theorem takeClock_clockBytes (t : TimeOfDay) (nanos : Nat) (rest : List Char) :
    takeClock nanos (chars t.clockBytes ++ rest) =
      (ofSecond? t.second nanos).map fun time => (time, rest) := by
  obtain ⟨hhour, hminute, hsecond⟩ := t.lt_hundred
  rw [chars_clockBytes]
  simp only [takeClock, takePair_padded hhour, takePair_padded hminute, takePair_padded hsecond,
    takeMark, if_true, Option.bind_eq_bind, Option.bind_some, ofClock?_self]
  cases ofSecond? t.second nanos with
  | none => rfl
  | some time => rfl

end TimeOfDay

end FixEngine
