import FixEngine.Proofs.Calendar.Timestamp

/-!
# How dates and clock times may be spelled

A date and a clock time are numbers with marks between some of them.  Two ways to spell
the numbers are set against each other: the full one has all the digits of the written
form, the lenient one is what the reader takes.  The reader takes as many digits as it
can, so a number is judged together with the text that follows it.
-/

namespace FixEngine.Calendar

variable {text front rest digits : List Char} {p : Char → Bool} {n limit : Nat}

/-! ### The longest run of some characters -/

/-- The text does not begin with such a character. -/
def Stops (p : Char → Bool) : List Char → Prop
  | [] => True
  | c :: _ => p c = false

theorem stops_dropWhile (p : Char → Bool) (text : List Char) : Stops p (text.dropWhile p) := by
  induction text with
  | nil => trivial
  | cons c text ih =>
    rw [List.dropWhile_cons]
    split
    · exact ih
    · next hc => exact Bool.eq_false_iff.2 hc

theorem takeWhile_append_of_stops (hfront : ∀ c ∈ front, p c = true) (hstop : Stops p rest) :
    (front ++ rest).takeWhile p = front := by
  rw [List.takeWhile_append_of_pos hfront]
  cases rest with
  | nil => simp
  | cons c rest => simp [show p c = false from hstop]

theorem dropWhile_append_of_stops (hfront : ∀ c ∈ front, p c = true) (hstop : Stops p rest) :
    (front ++ rest).dropWhile p = rest := by
  rw [List.dropWhile_append_of_pos hfront]
  cases rest with
  | nil => rfl
  | cons c rest => simp [show p c = false from hstop]

/-! ### Numbers -/

/-- The characters are digits and denote the number. -/
structure Denotes (digits : List Char) (n : Nat) : Prop where
  ne_nil : digits ≠ []
  digit : ∀ c ∈ digits, isDigitChar c = true
  number : numberOf digits = n

/-- The digits are as many as there are, up to a limit. -/
structure IsLongest (limit : Nat) (digits rest : List Char) : Prop where
  length_le : digits.length ≤ limit
  stops : digits.length < limit → Stops isDigitChar rest

theorem isDigitChar_iff {c : Char} : isDigitChar c = true ↔ 48 ≤ c.toNat ∧ c.toNat ≤ 57 := by
  simp only [isDigitChar, Char.le_def, UInt32.le_iff_toNat_le, Bool.and_eq_true, decide_eq_true_eq]
  exact Iff.rfl

theorem isBlank_of_isDigitChar {c : Char} (h : isDigitChar c = true) : isBlank c = false := by
  have hdigit := isDigitChar_iff.1 h
  simp only [isBlank]
  generalize c.toNat = n at hdigit
  simp
  omega

/-- A number begins with a digit. -/
theorem Denotes.exists_cons (h : Denotes digits n) :
    ∃ c more, digits = c :: more ∧ isDigitChar c = true := by
  cases digits with
  | nil => exact absurd rfl h.ne_nil
  | cons c more => exact ⟨c, more, rfl, h.digit c List.mem_cons_self⟩

theorem takeNumber_eq_some_iff : takeNumber text = some (n, rest) ↔
    ∃ digits, text = digits ++ rest ∧ Denotes digits n ∧ Stops isDigitChar rest := by
  rw [takeNumber]
  constructor
  · intro h
    split at h
    · contradiction
    · next hne =>
      cases h
      exact ⟨text.takeWhile isDigitChar, List.takeWhile_append_dropWhile.symm,
        ⟨fun hnil => hne (by rw [hnil]; rfl), fun c hc => List.mem_takeWhile_imp hc, rfl⟩,
        stops_dropWhile _ _⟩
  · rintro ⟨digits, rfl, hdigits, hstop⟩
    rw [takeWhile_append_of_stops hdigits.digit hstop,
      dropWhile_append_of_stops hdigits.digit hstop, if_neg (by simpa using hdigits.ne_nil),
      hdigits.number]

/-- The digits among the first characters are as many as there are, up to the limit. -/
theorem isLongest_takeWhile (limit : Nat) (text : List Char) :
    ∃ rest, text = (text.take limit).takeWhile isDigitChar ++ rest ∧
      IsLongest limit ((text.take limit).takeWhile isDigitChar) rest := by
  have hsplit := List.takeWhile_append_dropWhile (p := isDigitChar) (l := text.take limit)
  have htake : (text.take limit).length ≤ limit := List.length_take_le limit text
  refine ⟨(text.take limit).dropWhile isDigitChar ++ text.drop limit, ?_, ?_, fun hlt => ?_⟩
  · rw [← List.append_assoc, hsplit, List.take_append_drop]
  · exact Nat.le_trans (List.takeWhile_prefix isDigitChar).length_le htake
  · have hstop := stops_dropWhile isDigitChar (text.take limit)
    cases hrest : (text.take limit).dropWhile isDigitChar with
    | cons c rest =>
      rw [hrest] at hstop
      exact hstop
    | nil =>
      -- All that was taken is digits, so the text is shorter than the limit.
      rw [hrest, List.append_nil] at hsplit
      rw [hsplit, List.length_take] at hlt
      rw [List.drop_eq_nil_of_le (by omega)]
      trivial

theorem takeShort_eq_some_iff : takeShort limit text = some (n, rest) ↔
    ∃ digits, text = digits ++ rest ∧ Denotes digits n ∧ IsLongest limit digits rest := by
  rw [takeShort]
  constructor
  · intro h
    obtain ⟨back, htext, hlongest⟩ := isLongest_takeWhile limit text
    have hdigit : ∀ c ∈ (text.take limit).takeWhile isDigitChar, isDigitChar c = true :=
      fun c hc => List.mem_takeWhile_imp hc
    generalize (text.take limit).takeWhile isDigitChar = digits at h htext hlongest hdigit
    subst htext
    split at h
    · contradiction
    · next hne =>
      rw [List.drop_left] at h
      cases h
      exact ⟨digits, rfl, ⟨fun hnil => hne (by rw [hnil]; rfl), hdigit, rfl⟩, hlongest⟩
  · rintro ⟨digits, rfl, hdigits, hlongest⟩
    have hrest : Stops isDigitChar (rest.take (limit - digits.length)) := by
      cases rest with
      | nil => simp [Stops]
      | cons c rest =>
        cases hk : limit - digits.length with
        | zero => simp [Stops]
        | succ k => exact hlongest.stops (by omega)
    rw [List.take_append, List.take_of_length_le hlongest.length_le,
      takeWhile_append_of_stops hdigits.digit hrest, if_neg (by simpa using hdigits.ne_nil),
      hdigits.number, List.drop_left]

/-! ### The two ways to spell numbers -/

/-- How the numbers of a date and of a clock time are spelled, each before the text that
follows it. -/
structure Spelling where
  year : Int → List Char → List Char → Prop
  /-- Any number but a year. -/
  pair : Nat → List Char → List Char → Prop

/-- A year as the reader takes it.  After a sign it has any number of digits. -/
inductive IsYear : Int → List Char → List Char → Prop where
  | plain {n : Nat} {digits rest : List Char} :
    Denotes digits n → IsLongest 4 digits rest → IsYear n digits rest
  | minus {n : Nat} {digits rest : List Char} :
    Denotes digits n → Stops isDigitChar rest → IsYear (-n) ('-' :: digits) rest
  | plus {n : Nat} {digits rest : List Char} :
    Denotes digits n → Stops isDigitChar rest → IsYear n ('+' :: digits) rest

namespace Spelling

/-- Four digits for a year and two for every other number. -/
def full : Spelling where
  year year digits _ := digits.length = 4 ∧ ∃ n : Nat, Denotes digits n ∧ year = n
  pair n digits _ := digits.length = 2 ∧ Denotes digits n

/-- Blanks, and then no more digits than that. -/
def lenient : Spelling where
  year year front rest := ∃ blanks number, front = blanks ++ number ∧
    (∀ c ∈ blanks, isBlank c = true) ∧ IsYear year number rest
  pair n front rest := ∃ blanks digits, front = blanks ++ digits ∧
    (∀ c ∈ blanks, isBlank c = true) ∧ Denotes digits n ∧ IsLongest 2 digits rest

end Spelling

theorem takePair_eq_some_iff : takePair text = some (n, rest) ↔
    ∃ front, text = front ++ rest ∧ Spelling.lenient.pair n front rest := by
  rw [takePair, takeShort_eq_some_iff]
  constructor
  · rintro ⟨digits, hdrop, hdigits, hlongest⟩
    refine ⟨text.takeWhile isBlank ++ digits, ?_, text.takeWhile isBlank, digits, rfl,
      fun c hc => List.mem_takeWhile_imp hc, hdigits, hlongest⟩
    rw [List.append_assoc, ← hdrop, List.takeWhile_append_dropWhile]
  · rintro ⟨front, rfl, blanks, digits, rfl, hblanks, hdigits, hlongest⟩
    obtain ⟨c, more, rfl, hc⟩ := hdigits.exists_cons
    refine ⟨c :: more, ?_, hdigits, hlongest⟩
    rw [List.append_assoc]
    exact dropWhile_append_of_stops hblanks (isBlank_of_isDigitChar hc)

theorem IsYear.stops_isBlank {year : Int} {number : List Char} (h : IsYear year number rest)
    (more : List Char) : Stops isBlank (number ++ more) := by
  cases h with
  | plain hdigits =>
    obtain ⟨c, more, rfl, hc⟩ := hdigits.exists_cons
    exact isBlank_of_isDigitChar hc
  | minus => exact (by decide : isBlank '-' = false)
  | plus => exact (by decide : isBlank '+' = false)

/-- What stands after the blanks is read as a year. -/
theorem isYear_of_takeYear {year : Int} (h : takeYear text = some (year, rest)) :
    ∃ number, text.dropWhile isBlank = number ++ rest ∧ IsYear year number rest := by
  rw [takeYear] at h
  split at h
  · next more hdrop =>
    obtain ⟨⟨n, rest⟩, hread, h⟩ := Option.map_eq_some_iff.1 h
    cases h
    obtain ⟨digits, rfl, hdigits, hstop⟩ := takeNumber_eq_some_iff.1 hread
    exact ⟨'-' :: digits, hdrop, .minus hdigits hstop⟩
  · next more hdrop =>
    obtain ⟨⟨n, rest⟩, hread, h⟩ := Option.map_eq_some_iff.1 h
    cases h
    obtain ⟨digits, rfl, hdigits, hstop⟩ := takeNumber_eq_some_iff.1 hread
    exact ⟨'+' :: digits, hdrop, .plus hdigits hstop⟩
  · obtain ⟨⟨n, rest⟩, hread, h⟩ := Option.map_eq_some_iff.1 h
    cases h
    obtain ⟨digits, hdrop, hdigits, hlongest⟩ := takeShort_eq_some_iff.1 hread
    exact ⟨digits, hdrop, .plain hdigits hlongest⟩

theorem takeYear_of_isYear {year : Int} {number : List Char}
    (hdrop : text.dropWhile isBlank = number ++ rest) (h : IsYear year number rest) :
    takeYear text = some (year, rest) := by
  rw [takeYear, hdrop]
  cases h with
  | @minus _ digits _ hdigits hstop =>
    show (takeNumber (digits ++ rest)).map _ = _
    rw [takeNumber_eq_some_iff.2 ⟨_, rfl, hdigits, hstop⟩]
    rfl
  | @plus _ digits _ hdigits hstop =>
    show (takeNumber (digits ++ rest)).map _ = _
    rw [takeNumber_eq_some_iff.2 ⟨_, rfl, hdigits, hstop⟩]
    rfl
  | plain hdigits hlongest =>
    have hread := takeShort_eq_some_iff.2 ⟨_, rfl, hdigits, hlongest⟩
    obtain ⟨c, more, rfl, hc⟩ := hdigits.exists_cons
    split
    · next heq =>
      rw [(List.cons.inj heq).1] at hc
      contradiction
    · next heq =>
      rw [(List.cons.inj heq).1] at hc
      contradiction
    · rw [hread]
      rfl

theorem takeYear_eq_some_iff {year : Int} : takeYear text = some (year, rest) ↔
    ∃ front, text = front ++ rest ∧ Spelling.lenient.year year front rest := by
  constructor
  · intro h
    obtain ⟨number, hdrop, hyear⟩ := isYear_of_takeYear h
    refine ⟨text.takeWhile isBlank ++ number, ?_, text.takeWhile isBlank, number, rfl,
      fun c hc => List.mem_takeWhile_imp hc, hyear⟩
    rw [List.append_assoc, ← hdrop, List.takeWhile_append_dropWhile]
  · rintro ⟨front, rfl, blanks, number, rfl, hblanks, hyear⟩
    refine takeYear_of_isYear ?_ hyear
    rw [List.append_assoc]
    exact dropWhile_append_of_stops hblanks (hyear.stops_isBlank rest)

/-! ### Dates and clock times -/

theorem takeMark_eq_some_iff {mark : Char} :
    takeMark mark text = some rest ↔ text = mark :: rest := by
  cases text with
  | nil => simp [takeMark]
  | cons c more =>
    rw [takeMark]
    split
    · next hc => simp [hc]
    · next hc => simp [hc]

namespace Spelling

/-- The form `YYYYMMDD` of a date. -/
def Date (s : Spelling) (d : FixEngine.Date) (text rest : List Char) : Prop :=
  ∃ year month day, text = year ++ (month ++ day) ∧ s.year d.year year (month ++ (day ++ rest)) ∧
    s.pair d.month month (day ++ rest) ∧ s.pair d.day day rest

/-- The form `HH:MM:SS` of a second of the day.  A minute has seconds up to the given one,
of which the one numbered 60 is read as the one before it. -/
def Clock (s : Spelling) (last second : Nat) (text : List Char) : Prop :=
  ∃ hours minutes seconds hour minute shown,
    text = hours ++ ':' :: (minutes ++ ':' :: seconds) ∧
    s.pair hour hours (':' :: (minutes ++ ':' :: seconds)) ∧
    s.pair minute minutes (':' :: seconds) ∧ s.pair shown seconds [] ∧
    hour < 24 ∧ minute < 60 ∧ shown ≤ last ∧ second = hour * 3600 + minute * 60 + min shown 59

end Spelling

theorem takeDate_eq_some_iff {d : Date} : takeDate text = some (d, rest) ↔
    ∃ front, text = front ++ rest ∧ Spelling.lenient.Date d front rest := by
  simp only [takeDate, Option.bind_eq_bind, Option.bind_eq_some_iff, Prod.exists]
  constructor
  · rintro ⟨_, _, hyear, _, _, hmonth, _, _, hday, d', hdate, h⟩
    cases h
    obtain ⟨rfl, rfl, rfl⟩ := Date.ofParts?_eq_some_iff.1 hdate
    obtain ⟨year, rfl, hyearForm⟩ := takeYear_eq_some_iff.1 hyear
    obtain ⟨month, rfl, hmonthForm⟩ := takePair_eq_some_iff.1 hmonth
    obtain ⟨day, rfl, hdayForm⟩ := takePair_eq_some_iff.1 hday
    exact ⟨_, by simp only [List.append_assoc], year, month, day, rfl, hyearForm, hmonthForm,
      hdayForm⟩
  · rintro ⟨_, rfl, year, month, day, rfl, hyear, hmonth, hday⟩
    rw [List.append_assoc, List.append_assoc]
    exact ⟨_, _, takeYear_eq_some_iff.2 ⟨year, rfl, hyear⟩, _, _,
      takePair_eq_some_iff.2 ⟨month, rfl, hmonth⟩, _, _, takePair_eq_some_iff.2 ⟨day, rfl, hday⟩,
      d, d.ofParts?_self, rfl⟩

theorem ofClock?_eq_some_iff {hour minute shown nanos : Nat} {t : TimeOfDay} :
    TimeOfDay.ofClock? hour minute shown nanos = some t ↔
      hour < 24 ∧ minute < 60 ∧ shown ≤ 60 ∧ t.second = hour * 3600 + minute * 60 + min shown 59 ∧
        t.nanos = nanos := by
  rw [TimeOfDay.ofClock?]
  constructor
  · intro h
    split at h
    · next hclock =>
      obtain ⟨hsecond, hnanos⟩ := TimeOfDay.ofSecond?_eq_some_iff.1 h
      exact ⟨hclock.1, hclock.2.1, hclock.2.2, hsecond, hnanos⟩
    · contradiction
  · rintro ⟨hhour, hminute, hshown, hsecond, hnanos⟩
    rw [if_pos ⟨hhour, hminute, hshown⟩]
    exact TimeOfDay.ofSecond?_eq_some_iff.2 ⟨hsecond, hnanos⟩

/-- The whole text is read as a clock time with the nanoseconds that it is given. -/
theorem takeClock_eq_some_iff {nanos : Nat} {t : TimeOfDay} :
    takeClock nanos text = some (t, []) ↔
      Spelling.lenient.Clock 60 t.second text ∧ t.nanos = nanos := by
  simp only [takeClock, Option.bind_eq_bind, Option.bind_eq_some_iff, Prod.exists,
    takeMark_eq_some_iff]
  constructor
  · rintro ⟨_, _, hhour, _, rfl, _, _, hminute, _, rfl, _, _, hshown, t', htime, h⟩
    cases h
    obtain ⟨hours, rfl, hhourForm⟩ := takePair_eq_some_iff.1 hhour
    obtain ⟨minutes, rfl, hminuteForm⟩ := takePair_eq_some_iff.1 hminute
    obtain ⟨seconds, rfl, hsecondForm⟩ := takePair_eq_some_iff.1 hshown
    obtain ⟨hhour, hminute, hshown, hsecond, hnanos⟩ := ofClock?_eq_some_iff.1 htime
    rw [List.append_nil] at hhourForm hminuteForm ⊢
    exact ⟨⟨hours, minutes, seconds, _, _, _, rfl, hhourForm, hminuteForm, hsecondForm, hhour,
      hminute, hshown, hsecond⟩, hnanos⟩
  · rintro ⟨⟨hours, minutes, seconds, hour, minute, shown, rfl, hhourForm, hminuteForm,
      hsecondForm, hclock⟩, hnanos⟩
    obtain ⟨hhour, hminute, hshown, hsecond⟩ := hclock
    exact ⟨_, _, takePair_eq_some_iff.2 ⟨hours, rfl, hhourForm⟩, _, rfl, _, _,
      takePair_eq_some_iff.2 ⟨minutes, rfl, hminuteForm⟩, _, rfl, _, _,
      takePair_eq_some_iff.2 ⟨seconds, (List.append_nil _).symm, hsecondForm⟩, t,
      ofClock?_eq_some_iff.2 ⟨hhour, hminute, hshown, hsecond, hnanos⟩, rfl⟩

end FixEngine.Calendar
