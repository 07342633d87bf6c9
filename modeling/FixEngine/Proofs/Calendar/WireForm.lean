import FixEngine.Proofs.Calendar.Grammar
import FixEngine.Proofs.Text.Strict
import Mathlib.Data.List.Basic

/-!
# The wire forms of times

A time that is written as `YYYYMMDD-HH:MM:SS` with an optional fraction is read as the
moment, fraction and precision that it shows, and so are its two parts.  The reader takes
other spellings of the same length too: numbers after blanks, with fewer digits or, for a
year, with a sign, and a second numbered 60.  Without a blank and such a second nothing
but the wire form is read.
-/

namespace FixEngine.Calendar

open Utf8

variable {text rest front digits : List Char} {n last second : Nat} {d : FixEngine.Date}

/-! ### The characters of a spelling -/

/-- A character of a date or a clock time, apart from the blanks. -/
def IsPlain (c : Char) : Prop := isDigitChar c = true ∨ c = '-' ∨ c = '+' ∨ c = ':'

theorem IsPlain.toNat_lt {c : Char} (h : IsPlain c) : c.toNat < 0x80 := by
  rcases h with h | rfl | rfl | rfl
  · have hdigit := isDigitChar_iff.1 h
    omega
  all_goals decide

theorem IsPlain.isBlank_eq_false {c : Char} (h : IsPlain c) : isBlank c = false := by
  rcases h with h | rfl | rfl | rfl
  · exact isBlank_of_isDigitChar h
  all_goals decide

/-- The numbers of a spelling consist of such characters. -/
structure Spelling.Uses (s : Spelling) (p : Char → Prop) : Prop where
  year : ∀ {year rest front}, s.year year front rest → ∀ c ∈ front, p c
  pair : ∀ {n rest front}, s.pair n front rest → ∀ c ∈ front, p c

theorem Spelling.Uses.date {s : Spelling} {p : Char → Prop} (hs : s.Uses p)
    (h : s.Date d text rest) : ∀ c ∈ text, p c := by
  obtain ⟨year, month, day, rfl, hyear, hmonth, hday⟩ := h
  rw [List.forall_mem_append, List.forall_mem_append]
  exact ⟨hs.year hyear, hs.pair hmonth, hs.pair hday⟩

theorem Spelling.Uses.clock {s : Spelling} {p : Char → Prop} (hs : s.Uses p) (hcolon : p ':')
    (h : s.Clock last second text) : ∀ c ∈ text, p c := by
  obtain ⟨hours, minutes, seconds, _, _, _, rfl, hhours, hminutes, hseconds, -⟩ := h
  rw [List.forall_mem_append, List.forall_mem_cons, List.forall_mem_append, List.forall_mem_cons]
  exact ⟨hs.pair hhours, hcolon, hs.pair hminutes, hcolon, hs.pair hseconds⟩

theorem Spelling.full_uses : full.Uses IsPlain where
  year := by
    rintro _ _ digits ⟨-, n, hdigits, -⟩ c hc
    exact .inl (hdigits.digit c hc)
  pair := by
    rintro _ _ digits ⟨-, hdigits⟩ c hc
    exact .inl (hdigits.digit c hc)

theorem IsYear.isPlain {year : Int} (h : IsYear year front rest) : ∀ c ∈ front, IsPlain c := by
  cases h with
  | plain hdigits => exact fun c hc => .inl (hdigits.digit c hc)
  | minus hdigits =>
    exact List.forall_mem_cons.2 ⟨.inr (.inl rfl), fun c hc => .inl (hdigits.digit c hc)⟩
  | plus hdigits =>
    exact List.forall_mem_cons.2 ⟨.inr (.inr (.inl rfl)), fun c hc => .inl (hdigits.digit c hc)⟩

theorem Spelling.lenient_uses : lenient.Uses fun c => isBlank c = true ∨ IsPlain c where
  year := by
    rintro _ _ _ ⟨blanks, number, rfl, hblanks, hyear⟩
    exact List.forall_mem_append.2 ⟨fun c hc => .inl (hblanks c hc),
      fun c hc => .inr (hyear.isPlain c hc)⟩
  pair := by
    rintro _ _ _ ⟨blanks, digits, rfl, hblanks, hdigits, -⟩
    exact List.forall_mem_append.2 ⟨fun c hc => .inl (hblanks c hc),
      fun c hc => .inr (.inl (hdigits.digit c hc))⟩

/-! ### From the full spelling to the lenient one -/

/-- Whatever one spelling has, the other has too. -/
structure Spelling.Within (s s' : Spelling) : Prop where
  year : ∀ {year front rest}, s.year year front rest → s'.year year front rest
  pair : ∀ {n front rest}, s.pair n front rest → s'.pair n front rest

theorem Spelling.Within.date {s s' : Spelling} (hs : s.Within s') (h : s.Date d text rest) :
    s'.Date d text rest := by
  obtain ⟨year, month, day, htext, hyear, hmonth, hday⟩ := h
  exact ⟨year, month, day, htext, hs.year hyear, hs.pair hmonth, hs.pair hday⟩

theorem Spelling.Within.clock {s s' : Spelling} (hs : s.Within s') {last' : Nat}
    (hlast : last ≤ last') (h : s.Clock last second text) : s'.Clock last' second text := by
  obtain ⟨hours, minutes, seconds, hour, minute, shown, htext, hhours, hminutes, hseconds, hhour,
    hminute, hshown, hsecond⟩ := h
  exact ⟨hours, minutes, seconds, hour, minute, shown, htext, hs.pair hhours, hs.pair hminutes,
    hs.pair hseconds, hhour, hminute, Nat.le_trans hshown hlast, hsecond⟩

theorem Spelling.full_within_lenient : full.Within lenient where
  year := by
    rintro _ digits rest ⟨hlength, n, hdigits, rfl⟩
    have hlongest : IsLongest 4 digits rest := ⟨Nat.le_of_eq hlength, fun hlt => by omega⟩
    exact ⟨[], digits, rfl, by simp, .plain hdigits hlongest⟩
  pair := by
    rintro _ digits rest ⟨hlength, hdigits⟩
    exact ⟨[], digits, rfl, by simp, hdigits, Nat.le_of_eq hlength, fun hlt => by omega⟩

theorem Spelling.length_of_full_date (h : full.Date d text rest) : text.length = 8 := by
  obtain ⟨year, month, day, rfl, ⟨hyear, -⟩, ⟨hmonth, -⟩, hday, -⟩ := h
  simp only [List.length_append, hyear, hmonth, hday]

theorem Spelling.length_of_full_clock (h : full.Clock last second text) : text.length = 8 := by
  obtain ⟨hours, minutes, seconds, _, _, _, rfl, ⟨hhours, -⟩, ⟨hminutes, -⟩, ⟨hseconds, -⟩, -⟩ := h
  simp only [List.length_append, List.length_cons, hhours, hminutes, hseconds]

/-! ### From the lenient spelling to the full one -/

/-- None of the characters is blank. -/
def NoBlank (text : List Char) : Prop := ∀ c ∈ text, isBlank c = false

theorem NoBlank.eq_nil {blanks : List Char} (h : NoBlank (blanks ++ rest))
    (hblanks : ∀ c ∈ blanks, isBlank c = true) : blanks = [] := by
  cases blanks with
  | nil => rfl
  | cons c more =>
    have hfalse := h c List.mem_cons_self
    rw [hblanks c List.mem_cons_self] at hfalse
    contradiction

theorem NoBlank.pair (hblank : NoBlank front) (h : Spelling.lenient.pair n front rest) :
    Denotes front n ∧ IsLongest 2 front rest := by
  obtain ⟨blanks, digits, rfl, hblanks, hdigits, hlongest⟩ := h
  obtain rfl := hblank.eq_nil hblanks
  exact ⟨hdigits, hlongest⟩

theorem NoBlank.year {year : Int} (hblank : NoBlank front)
    (h : Spelling.lenient.year year front rest) : IsYear year front rest := by
  obtain ⟨blanks, number, rfl, hblanks, hyear⟩ := h
  obtain rfl := hblank.eq_nil hblanks
  exact hyear

/-- A number before another one takes all the digits that it may. -/
theorem IsLongest.length_eq {limit : Nat} (h : IsLongest limit front (digits ++ rest))
    (hdigits : Denotes digits n) : front.length = limit := by
  obtain ⟨c, more, rfl, hc⟩ := hdigits.exists_cons
  have hle := h.length_le
  by_contra hne
  have hstop : isDigitChar c = false := h.stops (by omega)
  rw [hc] at hstop
  contradiction

/-- A year before another number has four digits and no sign, since the number would
otherwise belong to it. -/
theorem IsYear.full {year : Int} (h : IsYear year front (digits ++ rest))
    (hdigits : Denotes digits n) : Spelling.full.year year front (digits ++ rest) := by
  have hgoes : ¬ Stops isDigitChar (digits ++ rest) := by
    obtain ⟨c, more, rfl, hc⟩ := hdigits.exists_cons
    exact fun hstop => absurd (hc.symm.trans hstop) (by decide)
  cases h with
  | plain hyear hlongest => exact ⟨hlongest.length_eq hdigits, _, hyear, rfl⟩
  | minus hyear hstop => exact absurd hstop hgoes
  | plus hyear hstop => exact absurd hstop hgoes

/-- Without blanks only the day of a date may be short of a digit. -/
theorem NoBlank.date (hblank : NoBlank text) (h : Spelling.lenient.Date d text rest) :
    text.length ≤ 8 ∧ (text.length = 8 → Spelling.full.Date d text rest) := by
  obtain ⟨year, month, day, rfl, hyear, hmonth, hday⟩ := h
  obtain ⟨hyearBlank, hmonthBlank, hdayBlank⟩ :
      NoBlank year ∧ NoBlank month ∧ NoBlank day := by
    simpa only [NoBlank, List.forall_mem_append] using hblank
  obtain ⟨hmonthDigits, hmonthLongest⟩ := hmonthBlank.pair hmonth
  obtain ⟨hdayDigits, hdayLongest⟩ := hdayBlank.pair hday
  have hfull := (hyearBlank.year hyear).full hmonthDigits
  have hmonthLength := hmonthLongest.length_eq hdayDigits
  have hyearLength : year.length = 4 := hfull.1
  have hdayLength := hdayLongest.length_le
  simp only [List.length_append]
  refine ⟨by omega, fun hlength => ?_⟩
  exact ⟨year, month, day, rfl, hfull, ⟨hmonthLength, hmonthDigits⟩, by omega, hdayDigits⟩

/-- Without blanks the numbers of a clock time may be short of a digit. -/
theorem NoBlank.clock (hblank : NoBlank text) (h : Spelling.lenient.Clock last second text) :
    text.length ≤ 8 ∧ (text.length = 8 → Spelling.full.Clock last second text) := by
  obtain ⟨hours, minutes, seconds, hour, minute, shown, rfl, hhours, hminutes, hseconds, hclock⟩ :=
    h
  obtain ⟨hhoursBlank, -, hminutesBlank, -, hsecondsBlank⟩ : NoBlank hours ∧ isBlank ':' = false ∧
      NoBlank minutes ∧ isBlank ':' = false ∧ NoBlank seconds := by
    simpa only [NoBlank, List.forall_mem_append, List.forall_mem_cons] using hblank
  obtain ⟨hhourDigits, hhourLongest⟩ := hhoursBlank.pair hhours
  obtain ⟨hminuteDigits, hminuteLongest⟩ := hminutesBlank.pair hminutes
  obtain ⟨hsecondDigits, hsecondLongest⟩ := hsecondsBlank.pair hseconds
  have hhourLength := hhourLongest.length_le
  have hminuteLength := hminuteLongest.length_le
  have hsecondLength := hsecondLongest.length_le
  simp only [List.length_append, List.length_cons]
  refine ⟨by omega, fun hlength => ?_⟩
  exact ⟨hours, minutes, seconds, hour, minute, shown, rfl, ⟨by omega, hhourDigits⟩,
    ⟨by omega, hminuteDigits⟩, ⟨by omega, hsecondDigits⟩, hclock⟩

/-! ### The second 60 -/

theorem eq_sixty_iff (hlength : digits.length = 2) (h : Denotes digits n) :
    digits = ['6', '0'] ↔ n = 60 := by
  constructor
  · rintro rfl
    exact h.number.symm
  · rintro rfl
    obtain ⟨a, b, rfl⟩ := List.length_eq_two.1 hlength
    obtain ⟨ha, hb⟩ : (48 ≤ a.toNat ∧ a.toNat ≤ 57) ∧ 48 ≤ b.toNat ∧ b.toNat ≤ 57 := by
      simpa [isDigitChar_iff] using h.digit
    have hnumber : (0 * 10 + (a.toNat - 48)) * 10 + (b.toNat - 48) = 60 := h.number
    have hsix : a.toNat = '6'.toNat := show a.toNat = 54 by omega
    have hzero : b.toNat = '0'.toNat := show b.toNat = 48 by omega
    rw [Char.toNat_inj.1 hsix, Char.toNat_inj.1 hzero]

/-- The bytes end in the second 60. -/
def ShowsSixty (bytes : Bytes) : Prop := bytesOf ['6', '0'] <:+ bytes

/-- A clock time that is spelled in full has the second 60 if its text shows it. -/
theorem Spelling.full_clock_iff (front : List Char) :
    full.Clock 59 second text ↔
      full.Clock 60 second text ∧ ¬ ShowsSixty (bytesOf (front ++ text)) := by
  have hends {hours minutes seconds : List Char} {shown : Nat}
      (hseconds : full.pair shown seconds []) :
      ShowsSixty (bytesOf (front ++ (hours ++ ':' :: (minutes ++ ':' :: seconds)))) ↔
        shown = 60 := by
    obtain ⟨hlength, hdigits⟩ := hseconds
    have hascii : ∀ c ∈ seconds, c.toNat < 0x80 := fun c hc =>
      IsPlain.toNat_lt (.inl (hdigits.digit c hc))
    have hsuffix : bytesOf seconds <:+
        bytesOf (front ++ (hours ++ ':' :: (minutes ++ ':' :: seconds))) := by
      simp only [bytesOf_append, bytesOf_cons, ← List.append_assoc]
      exact List.suffix_append _ _
    rw [← eq_sixty_iff hlength hdigits, ← bytesOf_inj]
    have hsame : (bytesOf ['6', '0']).length = (bytesOf seconds).length := by
      rw [length_bytesOf hascii, hlength]
      rfl
    constructor
    · intro hsixty
      exact ((List.suffix_of_suffix_length_le hsixty hsuffix hsame.le).eq_of_length hsame).symm
    · intro heq
      rw [ShowsSixty, ← heq]
      exact hsuffix
  constructor
  · rintro ⟨hours, minutes, seconds, hour, minute, shown, rfl, hhours, hminutes, hseconds, hhour,
      hminute, hshown, hsecond⟩
    refine ⟨⟨hours, minutes, seconds, hour, minute, shown, rfl, hhours, hminutes, hseconds, hhour,
      hminute, Nat.le_succ_of_le hshown, hsecond⟩, ?_⟩
    rw [hends hseconds]
    omega
  · rintro ⟨⟨hours, minutes, seconds, hour, minute, shown, rfl, hhours, hminutes, hseconds, hhour,
      hminute, hshown, hsecond⟩, hsixty⟩
    rw [hends hseconds] at hsixty
    exact ⟨hours, minutes, seconds, hour, minute, shown, rfl, hhours, hminutes, hseconds, hhour,
      hminute, by omega, hsecond⟩

/-! ### Fractions -/

/-- A fraction of so many digits is written again with this precision. -/
def Shows : Precision → Nat → Prop
  | .seconds, _ => False
  | .millis, count => count ≤ 3
  | .micros, count => 4 ≤ count ∧ count ≤ 6
  | .nanos, count => 7 ≤ count ∧ count ≤ 9

theorem ofDigits?_eq_some_iff {count : Nat} {precision : Precision} :
    Precision.ofDigits? count = some precision ↔ Shows precision count := by
  rw [Precision.ofDigits?]
  split
  · cases precision <;> simp [Shows] <;> omega
  split
  · cases precision <;> simp [Shows] <;> omega
  split
  · cases precision <;> simp [Shows] <;> omega
  · cases precision <;> simp [Shows] <;> omega

/-- What may follow a clock time, with the nanoseconds and the precision that it stands
for. -/
inductive IsFraction : Bytes → Nat → Precision → Prop where
  | none : IsFraction [] 0 .millis
  | digits {digits : Bytes} {nanos : Nat} {precision : Precision} :
    digits ≠ [] → Numeral.allDigits digits = true →
    nanos * 10 ^ digits.length = Numeral.value digits * 10 ^ 9 →
    Shows precision digits.length → IsFraction (Ascii.point :: digits) nanos precision

theorem nanosOf_iff {digits : Bytes} {nanos : Nat} (hlength : digits.length ≤ 9) :
    Fraction.nanosOf digits = nanos ↔
      nanos * 10 ^ digits.length = Numeral.value digits * 10 ^ 9 := by
  have hpow : 10 ^ (9 - digits.length) * 10 ^ digits.length = 10 ^ 9 := by
    rw [← Nat.pow_add, Nat.sub_add_cancel hlength]
  have hnanos : Fraction.nanosOf digits * 10 ^ digits.length = Numeral.value digits * 10 ^ 9 := by
    rw [← hpow, ← Nat.mul_assoc]
    rfl
  rw [← hnanos, Nat.mul_left_inj (Nat.pow_pos (by decide)).ne', eq_comm]

theorem le_of_shows {precision : Precision} {count : Nat} (h : Shows precision count) :
    count ≤ 9 := by
  cases precision with
  | seconds => exact h.elim
  | millis => exact Nat.le_trans h (by decide)
  | micros => exact Nat.le_trans h.2 (by decide)
  | nanos => exact h.2

/-- The bytes before the first point. -/
def baseOf (bytes : Bytes) : Bytes := bytes.takeWhile (· ≠ Ascii.point)

theorem point_not_mem_baseOf (bytes : Bytes) : Ascii.point ∉ baseOf bytes := by
  intro hmem
  have hne := List.mem_takeWhile_imp hmem
  simp at hne

theorem IsFraction.split {base fraction : Bytes} {nanos : Nat} {precision : Precision}
    (h : IsFraction fraction nanos precision) (hbase : Ascii.point ∉ base) :
    baseOf (base ++ fraction) = base ∧
      (base ++ fraction).dropWhile (· ≠ Ascii.point) = fraction := by
  have hplain : ∀ b ∈ base, decide (b ≠ Ascii.point) = true :=
    fun b hb => decide_eq_true fun heq => hbase (heq ▸ hb)
  rw [baseOf, List.takeWhile_append_of_pos hplain, List.dropWhile_append_of_pos hplain]
  cases h with
  | none => simp
  | digits => simp

/-- A written time is cut into a text before the first point and a fraction. -/
theorem split?_eq_some_iff {bytes : Bytes} {s : Fraction.Split} :
    Fraction.split? bytes = some s ↔
      s.baseLength = (bytesOf s.base).length ∧ Ascii.point ∉ bytesOf s.base ∧
        ∃ fraction, bytes = bytesOf s.base ++ fraction ∧
          IsFraction fraction s.nanos s.precision := by
  constructor
  · intro h
    have hbytes : bytes.takeWhile (· ≠ Ascii.point) ++ bytes.dropWhile (· ≠ Ascii.point) = bytes :=
      List.takeWhile_append_dropWhile
    have hpoint := point_not_mem_baseOf bytes
    obtain ⟨base, hbase, h⟩ := Option.bind_eq_some_iff.1 h
    have hbaseOf := chars?_eq_some_iff.1 hbase
    rw [baseOf, hbaseOf] at hpoint
    rw [hbaseOf] at hbytes h
    split at h
    · next hdrop =>
      cases h
      exact ⟨rfl, hpoint, [], by rw [← hdrop, hbytes], .none⟩
    · next b digits hdrop =>
      have hb : b = Ascii.point := by
        have hstop := List.head?_dropWhile_not (· ≠ Ascii.point) bytes
        rw [hdrop] at hstop
        simpa using hstop
      split at h
      · contradiction
      next hproper =>
      obtain ⟨hne, hdigits⟩ : digits ≠ [] ∧ Numeral.allDigits digits = true := by
        simpa using hproper
      obtain ⟨precision, hprecision, h⟩ := Option.bind_eq_some_iff.1 h
      cases h
      have hshows := ofDigits?_eq_some_iff.1 hprecision
      exact ⟨rfl, hpoint, b :: digits, by rw [← hdrop, hbytes],
        hb ▸ .digits hne hdigits ((nanosOf_iff (le_of_shows hshows)).1 rfl) hshows⟩
  · obtain ⟨base, baseLength, nanos, precision⟩ := s
    dsimp only
    rintro ⟨rfl, hpoint, fraction, rfl, hfraction⟩
    obtain ⟨htake, hdrop⟩ := hfraction.split hpoint
    rw [baseOf] at htake
    rw [Fraction.split?, htake, hdrop, chars?_eq_some_iff.2 rfl]
    cases hfraction with
    | none => rfl
    | @digits digits _ _ hne hdigits hnanos hshows =>
      have hproper : (digits.isEmpty || !Numeral.allDigits digits) = false := by
        simpa using ⟨hne, hdigits⟩
      rw [(nanosOf_iff (le_of_shows hshows)).2 hnanos |>.symm]
      simp only [Option.bind_eq_bind, Option.bind_some, hproper, Bool.false_eq_true, if_false,
        ofDigits?_eq_some_iff.2 hshows]
      rfl

/-! ### Whole times -/

/-- The bytes are the text and then the fraction. -/
def Written (text : List Char) (nanos : Nat) (precision : Precision) (bytes : Bytes) : Prop :=
  ∃ fraction, bytes = bytesOf text ++ fraction ∧ IsFraction fraction nanos precision

/-- The form `YYYYMMDD-HH:MM:SS` of a moment. -/
def Spelling.Moment (s : Spelling) (last : Nat) (t : Timestamp) (text : List Char) : Prop :=
  ∃ date clock, text = date ++ '-' :: clock ∧ s.Date t.date date ('-' :: clock) ∧
    s.Clock last t.time.second clock

theorem Spelling.Uses.moment {s : Spelling} {p : Char → Prop} (hs : s.Uses p) (hminus : p '-')
    (hcolon : p ':') {t : Timestamp} (h : s.Moment last t text) : ∀ c ∈ text, p c := by
  obtain ⟨date, clock, rfl, hdate, hclock⟩ := h
  exact List.forall_mem_append.2 ⟨hs.date hdate,
    List.forall_mem_cons.2 ⟨hminus, hs.clock hcolon hclock⟩⟩

theorem Spelling.length_of_full_moment {t : Timestamp} (h : full.Moment last t text) :
    text.length = 17 := by
  obtain ⟨date, clock, rfl, hdate, hclock⟩ := h
  rw [List.length_append, List.length_cons, length_of_full_date hdate, length_of_full_clock hclock]

theorem NoBlank.moment (hblank : NoBlank text) {t : Timestamp}
    (h : Spelling.lenient.Moment last t text) (hlength : text.length = 17) :
    Spelling.full.Moment last t text := by
  obtain ⟨date, clock, rfl, hdate, hclock⟩ := h
  obtain ⟨hdateBlank, -, hclockBlank⟩ : NoBlank date ∧ isBlank '-' = false ∧ NoBlank clock := by
    simpa only [NoBlank, List.forall_mem_append, List.forall_mem_cons] using hblank
  obtain ⟨hdateLength, hdateFull⟩ := hdateBlank.date hdate
  obtain ⟨hclockLength, hclockFull⟩ := hclockBlank.clock hclock
  rw [List.length_append, List.length_cons] at hlength
  exact ⟨date, clock, rfl, hdateFull (by omega), hclockFull (by omega)⟩

theorem Spelling.full_moment_iff {t : Timestamp} :
    full.Moment 59 t text ↔ full.Moment 60 t text ∧ ¬ ShowsSixty (bytesOf text) := by
  have hfront (date clock : List Char) : date ++ '-' :: clock = (date ++ ['-']) ++ clock := by simp
  constructor
  · rintro ⟨date, clock, rfl, hdate, hclock⟩
    obtain ⟨hleap, hsixty⟩ := (full_clock_iff (date ++ ['-'])).1 hclock
    exact ⟨⟨date, clock, rfl, hdate, hleap⟩, hfront date clock ▸ hsixty⟩
  · rintro ⟨⟨date, clock, rfl, hdate, hclock⟩, hsixty⟩
    rw [hfront] at hsixty
    exact ⟨date, clock, rfl, hdate, (full_clock_iff (date ++ ['-'])).2 ⟨hclock, hsixty⟩⟩

/-- No point stands in a date or a clock time. -/
theorem point_not_mem (h : ∀ c ∈ text, isBlank c = true ∨ IsPlain c) :
    Ascii.point ∉ bytesOf text := by
  intro hmem
  rcases h '.' (ofNat_mem_of_mem_bytesOf (by decide) hmem) with hblank | hplain
  · contradiction
  · have hnot : ¬ IsPlain '.' := by simp [IsPlain, isDigitChar]
    exact hnot hplain

/-- Without blanks there are as many bytes as characters. -/
theorem NoBlank.length_bytesOf (hblank : NoBlank text)
    (h : ∀ c ∈ text, isBlank c = true ∨ IsPlain c) : (bytesOf text).length = text.length := by
  refine Utf8.length_bytesOf fun c hc => ?_
  rcases h c hc with hc' | hc'
  · exact absurd (hc'.symm.trans (hblank c hc)) (by decide)
  · exact hc'.toNat_lt

/-- The bytes are read as a text without blanks. -/
def ReadsNoBlank (bytes : Bytes) : Prop := NoBlank (decodeLossy bytes).toList

theorem readsNoBlank_bytesOf : ReadsNoBlank (bytesOf text) ↔ NoBlank text := by
  have hread := decodeLossy_encode (String.ofList text)
  rw [encode, String.toList_ofList] at hread
  rw [ReadsNoBlank, bytesOf, hread, String.toList_ofList]

theorem baseOf_of_written {nanos : Nat} {precision : Precision} {bytes : Bytes}
    (h : ∀ c ∈ text, isBlank c = true ∨ IsPlain c)
    (hwritten : Written text nanos precision bytes) : baseOf bytes = bytesOf text := by
  obtain ⟨fraction, rfl, hfraction⟩ := hwritten
  exact (hfraction.split (point_not_mem h)).1

theorem Spelling.full_clock_iff_lenient :
    full.Clock 59 second text ↔ lenient.Clock 60 second text ∧ NoBlank text ∧
      text.length = 8 ∧ ¬ ShowsSixty (bytesOf text) := by
  constructor
  · intro h
    have hplain := full_uses.clock (.inr (.inr (.inr rfl))) h
    obtain ⟨hleap, hsixty⟩ := (full_clock_iff []).1 h
    exact ⟨full_within_lenient.clock (Nat.le_refl 60) hleap,
      fun c hc => (hplain c hc).isBlank_eq_false, length_of_full_clock h, hsixty⟩
  · rintro ⟨h, hblank, hlength, hsixty⟩
    exact (full_clock_iff []).2 ⟨(hblank.clock h).2 hlength, hsixty⟩

theorem Spelling.full_moment_iff_lenient {t : Timestamp} :
    full.Moment 59 t text ↔ lenient.Moment 60 t text ∧ NoBlank text ∧
      text.length = 17 ∧ ¬ ShowsSixty (bytesOf text) := by
  constructor
  · intro h
    have hplain := full_uses.moment (.inr (.inl rfl)) (.inr (.inr (.inr rfl))) h
    obtain ⟨⟨date, clock, htext, hdate, hclock⟩, hsixty⟩ := full_moment_iff.1 h
    exact ⟨⟨date, clock, htext, full_within_lenient.date hdate,
      full_within_lenient.clock (Nat.le_refl 60) hclock⟩,
      fun c hc => (hplain c hc).isBlank_eq_false, length_of_full_moment h, hsixty⟩
  · rintro ⟨h, hblank, hlength, hsixty⟩
    exact full_moment_iff.2 ⟨hblank.moment h hlength, hsixty⟩

/-- When the full texts are the lenient ones without a blank, in their full length and
without the second 60, this can be seen in the bytes that are written. -/
theorem written_iff {full lenient : List Char → Prop} {length nanos : Nat} {precision : Precision}
    {bytes : Bytes}
    (hchars : ∀ {text}, lenient text → ∀ c ∈ text, isBlank c = true ∨ IsPlain c)
    (hfull : ∀ {text}, full text ↔ lenient text ∧ NoBlank text ∧ text.length = length ∧
      ¬ ShowsSixty (bytesOf text)) :
    (∃ text, full text ∧ Written text nanos precision bytes) ↔
      (∃ text, lenient text ∧ (bytesOf text).length = length ∧
        Written text nanos precision bytes) ∧
      ReadsNoBlank (baseOf bytes) ∧ ¬ ShowsSixty (baseOf bytes) := by
  constructor
  · rintro ⟨text, htext, hwritten⟩
    obtain ⟨hlenient, hblank, hlength, hsixty⟩ := hfull.1 htext
    have hbytes := hblank.length_bytesOf (hchars hlenient)
    rw [baseOf_of_written (hchars hlenient) hwritten, readsNoBlank_bytesOf]
    exact ⟨⟨text, hlenient, hbytes.trans hlength, hwritten⟩, hblank, hsixty⟩
  · rintro ⟨⟨text, hlenient, hlength, hwritten⟩, hblank, hsixty⟩
    rw [baseOf_of_written (hchars hlenient) hwritten] at hblank hsixty
    rw [readsNoBlank_bytesOf] at hblank
    rw [hblank.length_bytesOf (hchars hlenient)] at hlength
    exact ⟨text, hfull.2 ⟨hlenient, hblank, hlength, hsixty⟩, hwritten⟩

end FixEngine.Calendar

namespace FixEngine

open Calendar Utf8

/-- A moment is read from the lenient spelling of its date and its time in seventeen
bytes. -/
theorem Timestamp.parse?_eq_some_iff {bytes : Bytes} {t : Timestamp} :
    parse? bytes = some t ↔ ∃ text, Spelling.lenient.Moment 60 t text ∧
      (bytesOf text).length = 17 ∧ Written text t.time.nanos t.precision bytes := by
  simp only [parse?, Option.bind_eq_bind, Option.bind_eq_some_iff, split?_eq_some_iff]
  constructor
  · rintro ⟨⟨base, length, nanos, precision⟩, ⟨hlength, -, hwritten⟩, h⟩
    split at h
    · contradiction
    next hseventeen =>
    simp only [Option.bind_eq_some_iff, Prod.exists] at h
    obtain ⟨date, rest, hdate, clock, hmark, time, rest', hclock, time', hwhole, h⟩ := h
    cases h
    cases Calendar.eq_of_whole hwhole
    obtain ⟨text, rfl, hdateForm⟩ := takeDate_eq_some_iff.1 hdate
    obtain rfl := takeMark_eq_some_iff.1 hmark
    obtain ⟨hclockForm, rfl⟩ := takeClock_eq_some_iff.1 hclock
    exact ⟨_, ⟨text, clock, rfl, hdateForm, hclockForm⟩,
      hlength.symm.trans (not_not.1 hseventeen), hwritten⟩
  · rintro ⟨text, hmoment, hlength, hwritten⟩
    have hpoint := point_not_mem (Spelling.lenient_uses.moment (.inr (.inr (.inl rfl)))
      (.inr (.inr (.inr (.inr rfl)))) hmoment)
    obtain ⟨date, clock, rfl, hdate, hclock⟩ := hmoment
    refine ⟨⟨date ++ '-' :: clock, 17, t.time.nanos, t.precision⟩,
      ⟨hlength.symm, hpoint, hwritten⟩, ?_⟩
    rw [if_neg (by simp), takeDate_eq_some_iff.2 ⟨date, rfl, hdate⟩, Option.bind_some,
      takeMark_eq_some_iff.2 rfl, Option.bind_some, takeClock_eq_some_iff.2 ⟨hclock, rfl⟩]
    rfl

/-- A time of day is read from its lenient spelling in eight bytes. -/
theorem TimeOnly.parse?_eq_some_iff {bytes : Bytes} {t : TimeOnly} :
    parse? bytes = some t ↔ ∃ text, Spelling.lenient.Clock 60 t.time.second text ∧
      (bytesOf text).length = 8 ∧ Written text t.time.nanos t.precision bytes := by
  simp only [parse?, Option.bind_eq_bind, Option.bind_eq_some_iff, split?_eq_some_iff]
  constructor
  · rintro ⟨⟨base, length, nanos, precision⟩, ⟨hlength, -, hwritten⟩, h⟩
    split at h
    · contradiction
    next height =>
    simp only [Option.bind_eq_some_iff, Prod.exists] at h
    obtain ⟨time, rest, hclock, time', hwhole, h⟩ := h
    cases h
    cases Calendar.eq_of_whole hwhole
    obtain ⟨hclockForm, rfl⟩ := takeClock_eq_some_iff.1 hclock
    exact ⟨base, hclockForm, hlength.symm.trans (not_not.1 height), hwritten⟩
  · rintro ⟨text, hclock, hlength, hwritten⟩
    have hpoint := point_not_mem
      (Spelling.lenient_uses.clock (.inr (.inr (.inr (.inr rfl)))) hclock)
    refine ⟨⟨text, 8, t.time.nanos, t.precision⟩, ⟨hlength.symm, hpoint, hwritten⟩, ?_⟩
    rw [if_neg (by simp), takeClock_eq_some_iff.2 ⟨hclock, rfl⟩]
    rfl

/-- A date is read from its lenient spelling in eight bytes. -/
theorem Date.parse?_eq_some_iff {bytes : Bytes} {d : Date} :
    parse? bytes = some d ↔ ∃ text, Spelling.lenient.Date d text [] ∧
      (bytesOf text).length = 8 ∧ bytes = bytesOf text := by
  simp only [parse?, Option.bind_eq_bind]
  constructor
  · intro h
    split at h
    · contradiction
    next height =>
    simp only [Option.bind_eq_some_iff, Prod.exists] at h
    obtain ⟨text, htext, date, rest, hdate, hwhole⟩ := h
    cases Calendar.eq_of_whole hwhole
    obtain ⟨text, rfl, hform⟩ := takeDate_eq_some_iff.1 hdate
    rw [List.append_nil] at htext
    obtain rfl := chars?_eq_some_iff.1 htext
    exact ⟨text, hform, not_not.1 height, rfl⟩
  · rintro ⟨text, hform, hlength, rfl⟩
    rw [if_neg (by simp [hlength]), chars?_eq_some_iff.2 rfl, Option.bind_some,
      takeDate_eq_some_iff.2 ⟨text, (List.append_nil text).symm, hform⟩]
    rfl

/-! ### The wire forms -/

/-- The bytes are `YYYYMMDD-HH:MM:SS`, a digit for each letter, with an optional fraction,
and show the moment. -/
def Timestamp.HasWireForm (t : Timestamp) (bytes : Bytes) : Prop :=
  ∃ text, Spelling.full.Moment 59 t text ∧ Written text t.time.nanos t.precision bytes

/-- The bytes are `HH:MM:SS`, a digit for each letter, with an optional fraction, and show
the time of day. -/
def TimeOnly.HasWireForm (t : TimeOnly) (bytes : Bytes) : Prop :=
  ∃ text, Spelling.full.Clock 59 t.time.second text ∧ Written text t.time.nanos t.precision bytes

/-- The bytes are `YYYYMMDD`, a digit for each letter, and show the date. -/
def Date.HasWireForm (d : Date) (bytes : Bytes) : Prop :=
  ∃ text, Spelling.full.Date d text [] ∧ bytes = bytesOf text

theorem Timestamp.hasWireForm_iff {bytes : Bytes} {t : Timestamp} :
    t.HasWireForm bytes ↔
      parse? bytes = some t ∧ ReadsNoBlank (baseOf bytes) ∧ ¬ ShowsSixty (baseOf bytes) := by
  rw [parse?_eq_some_iff]
  exact written_iff (Spelling.lenient_uses.moment (.inr (.inr (.inl rfl)))
    (.inr (.inr (.inr (.inr rfl))))) Spelling.full_moment_iff_lenient

theorem TimeOnly.hasWireForm_iff {bytes : Bytes} {t : TimeOnly} :
    t.HasWireForm bytes ↔
      parse? bytes = some t ∧ ReadsNoBlank (baseOf bytes) ∧ ¬ ShowsSixty (baseOf bytes) := by
  rw [parse?_eq_some_iff]
  exact written_iff (Spelling.lenient_uses.clock (.inr (.inr (.inr (.inr rfl)))))
    Spelling.full_clock_iff_lenient

theorem Date.hasWireForm_iff {bytes : Bytes} {d : Date} :
    d.HasWireForm bytes ↔ parse? bytes = some d ∧ ReadsNoBlank bytes := by
  rw [parse?_eq_some_iff]
  constructor
  · rintro ⟨text, hdate, rfl⟩
    have hplain := Spelling.full_uses.date hdate
    have hblank : NoBlank text := fun c hc => (hplain c hc).isBlank_eq_false
    have hlength : (bytesOf text).length = 8 := by
      rw [Utf8.length_bytesOf fun c hc => (hplain c hc).toNat_lt,
        Spelling.length_of_full_date hdate]
    exact ⟨⟨text, Spelling.full_within_lenient.date hdate, hlength, rfl⟩,
      readsNoBlank_bytesOf.2 hblank⟩
  · rintro ⟨⟨text, hdate, hlength, rfl⟩, hblank⟩
    rw [readsNoBlank_bytesOf] at hblank
    rw [hblank.length_bytesOf (Spelling.lenient_uses.date hdate)] at hlength
    exact ⟨text, (hblank.date hdate).2 hlength, rfl⟩

/-- Times are read from what the lenient spelling allows in the bytes of the wire form, and
from the wire form as what it shows.  Any other text that is read has a blank in it or the
second 60. -/
theorem times_read_as_spelled (bytes : Bytes) :
    (∀ t : Timestamp,
      (Timestamp.parse? bytes = some t ↔ ∃ text, Spelling.lenient.Moment 60 t text ∧
        (bytesOf text).length = 17 ∧ Written text t.time.nanos t.precision bytes) ∧
      (t.HasWireForm bytes ↔ Timestamp.parse? bytes = some t ∧
        ReadsNoBlank (baseOf bytes) ∧ ¬ ShowsSixty (baseOf bytes))) ∧
    (∀ t : TimeOnly,
      (TimeOnly.parse? bytes = some t ↔ ∃ text, Spelling.lenient.Clock 60 t.time.second text ∧
        (bytesOf text).length = 8 ∧ Written text t.time.nanos t.precision bytes) ∧
      (t.HasWireForm bytes ↔ TimeOnly.parse? bytes = some t ∧
        ReadsNoBlank (baseOf bytes) ∧ ¬ ShowsSixty (baseOf bytes))) ∧
    ∀ d : Date,
      (Date.parse? bytes = some d ↔ ∃ text, Spelling.lenient.Date d text [] ∧
        (bytesOf text).length = 8 ∧ bytes = bytesOf text) ∧
      (d.HasWireForm bytes ↔ Date.parse? bytes = some d ∧ ReadsNoBlank bytes) :=
  ⟨fun _ => ⟨Timestamp.parse?_eq_some_iff, Timestamp.hasWireForm_iff⟩,
    fun _ => ⟨TimeOnly.parse?_eq_some_iff, TimeOnly.hasWireForm_iff⟩,
    fun _ => ⟨Date.parse?_eq_some_iff, Date.hasWireForm_iff⟩⟩

/-- Months and days may stand after a blank, and the second 60 is read as the one before
it. -/
theorem exists_read_without_wireForm :
    (∃ t, Timestamp.parse? (encode "2009 1 7-18:15:16") = some t ∧
      ¬ t.HasWireForm (encode "2009 1 7-18:15:16")) ∧
    (∃ t, TimeOnly.parse? (encode "08:03:60") = some t ∧ ¬ t.HasWireForm (encode "08:03:60")) ∧
    ∃ d, Date.parse? (encode "2024 1 5") = some d ∧ ¬ d.HasWireForm (encode "2024 1 5") := by
  refine ⟨⟨_, rfl, fun h => ?_⟩, ⟨_, rfl, fun h => ?_⟩, _, rfl, fun h => ?_⟩
  · have hblank : isBlank ' ' = false := (Timestamp.hasWireForm_iff.1 h).2.1 ' ' (by decide)
    contradiction
  · exact (TimeOnly.hasWireForm_iff.1 h).2.2 ⟨encode "08:03:", rfl⟩
  · have hblank : isBlank ' ' = false := (Date.hasWireForm_iff.1 h).2 ' ' (by decide)
    contradiction

end FixEngine
