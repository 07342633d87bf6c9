import FixEngine.Proofs.Calendar.Reading

/-!
# Dates and their day numbers

The calendar repeats every four centuries, which are four centuries of 36524 days and a
leap day more.  A century has twenty-five cycles of four years with 1461 days, the last of
which is short of its leap day if the century is.  Counted from March, the days of a year
do not depend on its length but for the last one.  A day number is taken apart into these
parts and put together from them, so every day of the calendar has one number and every
number at most one day.
-/

namespace FixEngine

open Calendar

namespace Calendar

/-! ### Centuries, cycles of four years, and years -/

/-- A day within four centuries, by its century, cycle of four years, year and day.  The last
day of a year is the leap day. -/
structure IsDayOfEra (c q y d : Int) : Prop where
  century : 0 ≤ c ∧ c ≤ 3
  cycle : 0 ≤ q ∧ q ≤ 24
  year : 0 ≤ y ∧ y ≤ 3
  day : 0 ≤ d ∧ d ≤ 365
  leap : d = 365 → y = 3 ∧ (q = 24 → c = 3)

variable {era c q y d : Int}

theorem exists_isDayOfEra (n : Int) : ∃ era c q y d, IsDayOfEra c q y d ∧
    n = 146097 * era + (36524 * c + 1461 * q + 365 * y + d) := by
  obtain ⟨era, r, hn, hr⟩ : ∃ era r, n = 146097 * era + r ∧ 0 ≤ r ∧ r < 146097 :=
    ⟨n / 146097, n % 146097, by omega, by omega, by omega⟩
  obtain ⟨c, s, hr', hc, hs⟩ : ∃ c s, r = 36524 * c + s ∧ (0 ≤ c ∧ c ≤ 3) ∧ 0 ≤ s ∧
      (s < 36524 ∨ s = 36524 ∧ c = 3) :=
    ⟨min (r / 36524) 3, r - 36524 * min (r / 36524) 3, by omega, by omega, by omega, by omega⟩
  obtain ⟨q, t, hs', hq, ht⟩ : ∃ q t, s = 1461 * q + t ∧ (0 ≤ q ∧ q ≤ 24) ∧ 0 ≤ t ∧ t < 1461 :=
    ⟨s / 1461, s % 1461, by omega, by omega, by omega, by omega⟩
  obtain ⟨y, d, ht', hy, hd⟩ : ∃ y d, t = 365 * y + d ∧ (0 ≤ y ∧ y ≤ 3) ∧ 0 ≤ d ∧
      (d < 365 ∨ d = 365 ∧ y = 3) :=
    ⟨min (t / 365) 3, t - 365 * min (t / 365) 3, by omega, by omega, by omega, by omega⟩
  exact ⟨era, c, q, y, d, ⟨hc, hq, hy, by omega, by omega⟩, by omega⟩

/-- The fourth century has a day more than the others. -/
theorem century_eq {n s : Int} (hc : 0 ≤ c ∧ c ≤ 3) (hs : 0 ≤ s)
    (hlast : s < 36524 ∨ s = 36524 ∧ c = 3) (hn : n = 36524 * c + s) :
    n / 36524 - n / 146096 = c := by
  rcases hlast with hlast | ⟨rfl, rfl⟩
  · have hfirst : n / 146096 = 0 := by omega
    omega
  · rw [hn]
    rfl

/-- The year of a day within four centuries: the leap days before it are taken away, and what
is left has years of 365 days. -/
theorem IsDayOfEra.yearOfEra_eq (h : IsDayOfEra c q y d) {n : Int}
    (hn : n = 36524 * c + 1461 * q + 365 * y + d) :
    (n - n / 1460 + n / 36524 - n / 146096) / 365 = 100 * c + 4 * q + y := by
  obtain ⟨hc, hq, hy, hd, hleap⟩ := h
  -- A day among the last of a cycle is beyond its leap day for this count.
  have hcycles : n / 1460 = 25 * c + q + (24 * c + q + 365 * y + d) / 1460 := by omega
  have hcenturies : n / 36524 - n / 146096 = c :=
    century_eq (s := 1461 * q + 365 * y + d) hc (by omega) (by omega) (by omega)
  omega

/-! ### Years that begin in March -/

/-- Days from 1 March of the year zero to 1 March of a year. -/
def startOfYear (year : Int) : Int := year * 365 + year / 4 - year / 100 + year / 400

theorem IsDayOfEra.startOfYear_eq (h : IsDayOfEra c q y d) (era : Int) :
    startOfYear (100 * c + 4 * q + y + era * 400) + d =
      146097 * era + (36524 * c + 1461 * q + 365 * y + d) := by
  obtain ⟨hc, hq, hy, -, -⟩ := h
  rw [startOfYear]
  omega

theorem isLeapYear_iff {year : Int} :
    isLeapYear year = true ↔ year % 4 = 0 ∧ (year % 100 ≠ 0 ∨ year % 400 = 0) := by
  simp [isLeapYear]

/-- The day is one of the year that begins in March of the given one.  Its last day is the
leap day of the next February. -/
structure IsDayOfYear (year d : Int) : Prop where
  day : 0 ≤ d ∧ d ≤ 365
  leap : d = 365 → isLeapYear (year + 1) = true

theorem IsDayOfYear.exists_isDayOfEra {year : Int} (h : IsDayOfYear year d) :
    ∃ era c q y, IsDayOfEra c q y d ∧ year = 100 * c + 4 * q + y + era * 400 := by
  obtain ⟨hd, hleap⟩ := h
  rw [isLeapYear_iff] at hleap
  exact ⟨year / 400, year % 400 / 100, year % 100 / 4, year % 4,
    ⟨by omega, by omega, by omega, hd, by omega⟩, by omega⟩

/-- The months from March on begin where those before them end, and the last one ends with
the year. -/
theorem IsDate.month_bounds {year : Int} {month day : Nat} (h : IsDate year month day) {k : Int}
    (hk : (month + 9 : Int) % 12 = k) :
    (0 ≤ k ∧ k ≤ 11) ∧ month = (if k < 10 then k + 3 else k - 9) ∧ 1 ≤ day ∧
      (153 * k + 2) / 5 + day ≤ min ((153 * (k + 1) + 2) / 5) 366 := by
  obtain ⟨-, -, hfirst, hlast⟩ := h
  revert hlast
  fun_cases daysInMonth year month <;> intro hlast
  all_goals omega

theorem IsDate.isLeapYear {year : Int} {day : Nat} (h : IsDate year 2 day) (hday : 28 < day) :
    isLeapYear year = true := by
  obtain ⟨-, -, -, hlast⟩ := h
  rw [daysInMonth] at hlast
  by_contra hleap
  rw [if_neg hleap] at hlast
  omega

end Calendar

namespace Date

/-- The year that began in March before the date. -/
def marchYear (date : Date) : Int := if date.month ≤ 2 then date.year - 1 else date.year

/-- Months since the last March. -/
def marchMonth (date : Date) : Int := (date.month + 9) % 12

/-- Days since the last 1 March. -/
def dayOfYear (date : Date) : Int := (153 * date.marchMonth + 2) / 5 + (date.day - 1)

theorem dayNumber_eq (date : Date) :
    date.dayNumber = startOfYear date.marchYear + date.dayOfYear - epochOffset := by
  rw [dayNumber, startOfYear, marchYear, dayOfYear, marchMonth]
  omega

theorem isDayOfYear (date : Date) : IsDayOfYear date.marchYear date.dayOfYear := by
  have hbounds := date.isDate.month_bounds (k := date.marchMonth) rfl
  refine ⟨by rw [dayOfYear]; omega, fun hlast => ?_⟩
  rw [dayOfYear] at hlast
  have hfebruary : date.month = 2 := by omega
  rw [marchYear, if_pos (Nat.le_of_eq hfebruary), Int.sub_add_cancel]
  exact (hfebruary ▸ date.isDate).isLeapYear (by omega)

/-- The date of a day in a year that begins in March. -/
def ofDayOfYear? (year d : Int) : Option Date :=
  let month := (5 * d + 2) / 153
  let civilMonth := if month < 10 then month + 3 else month - 9
  ofParts? (year + if civilMonth ≤ 2 then 1 else 0) civilMonth.toNat
    (d - (153 * month + 2) / 5 + 1).toNat

theorem ofDayNumber?_eq {n era c q y d : Int} (h : IsDayOfEra c q y d)
    (hn : n + epochOffset = 146097 * era + (36524 * c + 1461 * q + 365 * y + d)) :
    ofDayNumber? n = ofDayOfYear? (100 * c + 4 * q + y + era * 400) d := by
  have hbound : 0 ≤ 36524 * c + 1461 * q + 365 * y + d ∧
      36524 * c + 1461 * q + 365 * y + d < 146097 := by
    obtain ⟨hc, hq, hy, hd, hleap⟩ := h
    omega
  have hrest : 36524 * c + 1461 * q + 365 * y + d - (365 * (100 * c + 4 * q + y) +
      (100 * c + 4 * q + y) / 4 - (100 * c + 4 * q + y) / 100) = d := by
    obtain ⟨hc, hq, hy, -, -⟩ := h
    omega
  have hera : (n + epochOffset) / 146097 = era := by omega
  have hday : (n + epochOffset) % 146097 = 36524 * c + 1461 * q + 365 * y + d := by omega
  simp only [ofDayNumber?, hera, hday, h.yearOfEra_eq rfl, hrest, ofDayOfYear?]

theorem ofDayOfYear?_eq_some_iff {year d : Int} (hd : 0 ≤ d ∧ d ≤ 365) {date : Date} :
    ofDayOfYear? year d = some date ↔ date.marchYear = year ∧ date.dayOfYear = d := by
  obtain ⟨k, hk⟩ : ∃ k, (5 * d + 2) / 153 = k := ⟨_, rfl⟩
  simp only [ofDayOfYear?, hk]
  rw [ofParts?_eq_some_iff, marchYear]
  constructor
  · rintro ⟨hyear, hmonth, hday⟩
    have hmarch : date.marchMonth = k := by
      rw [marchMonth]
      omega
    rw [dayOfYear, hmarch]
    omega
  · rintro ⟨rfl, rfl⟩
    have hbounds := date.isDate.month_bounds (k := date.marchMonth) rfl
    rw [dayOfYear] at hk ⊢
    have hmarch : k = date.marchMonth := by omega
    rw [hmarch]
    omega

/-- A day number is that of the date which it is read as, and of no other. -/
theorem ofDayNumber?_eq_some_iff {n : Int} {date : Date} :
    ofDayNumber? n = some date ↔ date.dayNumber = n := by
  constructor
  · intro h
    obtain ⟨era, c, q, y, d, hday, hn⟩ := exists_isDayOfEra (n + epochOffset)
    rw [ofDayNumber?_eq hday hn, ofDayOfYear?_eq_some_iff hday.day] at h
    rw [dayNumber_eq, h.1, h.2, hday.startOfYear_eq, ← hn, Int.add_sub_cancel]
  · rintro rfl
    obtain ⟨era, c, q, y, hday, hyear⟩ := date.isDayOfYear.exists_isDayOfEra
    rw [ofDayNumber?_eq hday, ofDayOfYear?_eq_some_iff hday.day]
    · exact ⟨hyear, rfl⟩
    · rw [dayNumber_eq, Int.sub_add_cancel, hyear, hday.startOfYear_eq]

end Date

end FixEngine
