import FixEngine.Number.Numeral

/-!
# Calendar dates

Dates of the proleptic Gregorian calendar, their written form `YYYYMMDD` and
their distance in days from 1 January 1970.
-/

namespace FixEngine

namespace Calendar

/-- Every fourth year is a leap year, except the centuries that 400 does not
divide. -/
def isLeapYear (year : Int) : Bool :=
  year % 4 = 0 && (year % 100 ≠ 0 || year % 400 = 0)

/-- The length of a month; zero when there is no such month. -/
def daysInMonth (year : Int) : Nat → Nat
  | 1 | 3 | 5 | 7 | 8 | 10 | 12 => 31
  | 4 | 6 | 9 | 11 => 30
  | 2 => if isLeapYear year then 29 else 28
  | _ => 0

def firstYear : Int := -262143

def lastYear : Int := 262142

/-- The three numbers name a day of the calendar. -/
def IsDate (year : Int) (month day : Nat) : Prop :=
  firstYear ≤ year ∧ year ≤ lastYear ∧ 1 ≤ day ∧ day ≤ daysInMonth year month

instance (year : Int) (month day : Nat) : Decidable (IsDate year month day) := by
  unfold IsDate; infer_instance

end Calendar

structure Date where
  year : Int
  month : Nat
  day : Nat
  isDate : Calendar.IsDate year month day
  deriving DecidableEq, Repr

namespace Date

def ofParts? (year : Int) (month day : Nat) : Option Date :=
  if h : Calendar.IsDate year month day then some ⟨year, month, day, h⟩ else none

def epoch : Date := ⟨1970, 1, 1, by decide⟩

/-! ### Day numbers

Years are counted from March, so that a leap day is the last day of its year.
Four centuries of them have 146097 days, and the months from March on follow
the pattern 31, 30, 31, 30, 31, which `(153 * m + 2) / 5` sums up. -/

/-- Days from 1 March of the year zero to 1 January 1970. -/
def epochOffset : Int := 719468

/-- Days since 1 January 1970. -/
def dayNumber (d : Date) : Int :=
  let year := if d.month ≤ 2 then d.year - 1 else d.year
  let month : Int := (d.month + 9) % 12
  year * 365 + year / 4 - year / 100 + year / 400 + (153 * month + 2) / 5 + (d.day - 1)
    - epochOffset

/-- The date that many days after 1 January 1970, if the calendar has it. -/
def ofDayNumber? (n : Int) : Option Date :=
  let days := n + epochOffset
  let era := days / 146097
  let dayOfEra := days % 146097
  let yearOfEra := (dayOfEra - dayOfEra / 1460 + dayOfEra / 36524 - dayOfEra / 146096) / 365
  let dayOfYear := dayOfEra - (365 * yearOfEra + yearOfEra / 4 - yearOfEra / 100)
  let month := (5 * dayOfYear + 2) / 153
  let day := dayOfYear - (153 * month + 2) / 5 + 1
  let civilMonth := if month < 10 then month + 3 else month - 9
  let year := yearOfEra + era * 400 + (if civilMonth ≤ 2 then 1 else 0)
  ofParts? year civilMonth.toNat day.toNat

/-! ### Writing -/

/-- Four digits for the years 0 to 9999; other years have a sign and at least
four digits. -/
def yearBytes (year : Int) : Bytes :=
  if 0 ≤ year ∧ year ≤ 9999 then Numeral.padded 4 year.toNat
  else
    (if year < 0 then Ascii.minus else Ascii.plus) :: Numeral.padded 4 year.natAbs

/-- The form `YYYYMMDD`. -/
def toBytes (d : Date) : Bytes :=
  yearBytes d.year ++ Numeral.padded 2 d.month ++ Numeral.padded 2 d.day

instance : Ord Date where
  compare a b :=
    ((compare a.year b.year).then (compare a.month b.month)).then (compare a.day b.day)

end Date

end FixEngine
