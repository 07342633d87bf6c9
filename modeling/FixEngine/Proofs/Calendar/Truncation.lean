import FixEngine.Proofs.Calendar.DayNumber
import FixEngine.Proofs.Calendar.Timestamp

/-!
# Times cut off at a precision

What a precision does not show of a time is lost when it is written.  The time that is read
back is the last one of its unit that is not later, and no unit ahead of it.  A moment that
is a whole number of milliseconds since 1970 loses nothing, whichever side of 1970 it is on.
-/

namespace FixEngine

open Calendar

/-- The nanoseconds of the last digit that is shown. -/
def Precision.unit : Precision → Nat
  | seconds => 1000000000
  | millis => 1000000
  | micros => 1000
  | nanos => 1

theorem Fraction.shown_eq {nanos : Nat} (h : nanos < nanosPerSecond) (precision : Precision) :
    shown nanos precision = nanos / precision.unit * precision.unit := by
  have hlast : nanos ≤ 999999999 := Nat.le_of_lt_succ h
  rw [shown, Nat.min_eq_left hlast]
  cases precision <;> rfl

namespace TimeOfDay

/-- The last time of a unit of nanoseconds that is not later, within the same second. -/
structure IsTruncation (unit : Nat) (t t' : TimeOfDay) : Prop where
  second : t'.second = t.second
  dvd : unit ∣ t'.nanos
  le : t'.nanos ≤ t.nanos
  lt : t.nanos < t'.nanos + unit

theorem isTruncation_shownAt {t : TimeOfDay} (h : t.nanos < nanosPerSecond)
    (precision : Precision) : IsTruncation precision.unit t (t.shownAt precision) := by
  have hnanos : (t.shownAt precision).nanos = t.nanos / precision.unit * precision.unit :=
    Fraction.shown_eq h precision
  have hunit : 0 < precision.unit := by cases precision <;> decide
  refine ⟨rfl, ?_, ?_, ?_⟩ <;> rw [hnanos]
  · exact Nat.dvd_mul_left _ _
  · exact Nat.div_mul_le_self _ _
  · exact Nat.lt_div_mul_add hunit

end TimeOfDay

namespace Timestamp

theorem ofSeconds?_eq_some_iff {seconds : Int} {nanos : Nat} {precision : Precision}
    {t : Timestamp} : ofSeconds? seconds nanos precision = some t ↔
      t.date.dayNumber = seconds / secondsPerDay ∧
        t.time.second = (seconds % secondsPerDay).toNat ∧ t.time.nanos = nanos ∧
        t.precision = precision := by
  simp only [ofSeconds?, Option.bind_eq_bind, Option.bind_eq_some_iff,
    Date.ofDayNumber?_eq_some_iff, TimeOfDay.ofSecond?_eq_some_iff]
  constructor
  · rintro ⟨date, hdate, time, ⟨hsecond, hnanos⟩, h⟩
    cases h
    exact ⟨hdate, hsecond, hnanos, rfl⟩
  · rintro ⟨hdate, hsecond, hnanos, rfl⟩
    exact ⟨t.date, hdate, t.time, ⟨hsecond, hnanos⟩, rfl⟩

/-- The moments of the calendar that are a whole number of milliseconds are those which
such a number is turned into, and they tell the number again. -/
theorem ofEpochMillis?_eq_some_iff {millis : Int} {t : Timestamp} :
    ofEpochMillis? millis = some t ↔
      t.epochMillis = millis ∧ t.precision = .millis ∧ t.time.nanos < nanosPerSecond ∧
        Precision.millis.unit ∣ t.time.nanos := by
  have hsecond : t.time.second < secondsPerDay := t.time.isTime.1
  simp only [ofEpochMillis?, ofSeconds?_eq_some_iff, epochMillis, TimeOfDay.millis,
    Precision.unit, nanosPerSecond, secondsPerDay] at hsecond ⊢
  constructor
  · rintro ⟨hdate, hclock, hnanos, hprecision⟩
    exact ⟨by omega, hprecision, by omega, by omega⟩
  · rintro ⟨hmillis, hprecision, hnanos, hdvd⟩
    exact ⟨by omega, by omega, by omega, hprecision⟩

/-- A whole number of milliseconds shows all of itself. -/
theorem parse?_toBytes_of_ofEpochMillis? {millis : Int} {t : Timestamp}
    (h : ofEpochMillis? millis = some t) (hyear : t.date.HasFourDigits) :
    parse? t.toBytes = some t := by
  obtain ⟨-, hprecision, hnanos, hdvd⟩ := ofEpochMillis?_eq_some_iff.1 h
  have hshown : Fraction.shown t.time.nanos t.precision = t.time.nanos := by
    rw [hprecision, Fraction.shown_eq hnanos, Nat.div_mul_cancel hdvd]
  have hread : t.precision.asRead = t.precision := by
    rw [hprecision]
    rfl
  rw [parse?_toBytes hyear, TimeOfDay.shownAt_eq_self hshown, hread]

end Timestamp

/-- A moment and a time of day are read back cut off at the precision they were written
with.  A date is read back as itself, and so is the moment of a whole number of milliseconds
since 1970, which tells the number again. -/
theorem times_read_back_truncated :
    (∀ (t : Timestamp) (precision : Precision), t.date.HasFourDigits →
      t.time.nanos < nanosPerSecond →
        ∃ time, Timestamp.parse? (t.withPrecision precision).toBytes =
            some ⟨t.date, time, precision.asRead⟩ ∧
          TimeOfDay.IsTruncation precision.unit t.time time) ∧
    (∀ t : TimeOnly, t.time.nanos < nanosPerSecond →
      ∃ time, TimeOnly.parse? t.toBytes = some ⟨time, t.precision.asRead⟩ ∧
        TimeOfDay.IsTruncation t.precision.unit t.time time) ∧
    (∀ d : Date, Date.parse? d.toBytes = some d ↔ d.HasFourDigits) ∧
    (∀ (millis : Int) (t : Timestamp), Timestamp.ofEpochMillis? millis = some t →
      t.date.HasFourDigits → Timestamp.parse? t.toBytes = some t ∧ t.epochMillis = millis) := by
  refine ⟨fun t precision hyear hnanos => ?_, fun t hnanos => ?_, fun d => ?_,
    fun millis t h hyear => ?_⟩
  · have hread := Timestamp.parse?_toBytes (t := t.withPrecision precision) hyear
    exact ⟨t.time.shownAt precision, hread, TimeOfDay.isTruncation_shownAt hnanos precision⟩
  · exact ⟨t.time.shownAt t.precision, t.parse?_toBytes,
      TimeOfDay.isTruncation_shownAt hnanos t.precision⟩
  · refine ⟨fun h => ?_, Date.parse?_toBytes⟩
    by_contra hyear
    rw [Date.parse?_toBytes_eq_none hyear] at h
    contradiction
  · exact ⟨Timestamp.parse?_toBytes_of_ofEpochMillis? h hyear,
      (Timestamp.ofEpochMillis?_eq_some_iff.1 h).1⟩

/-- The last microsecond of a leap day and the last millisecond before 1970. -/
theorem times_read_back_truncated_sample :
    (∃ time, Timestamp.parse? (Timestamp.withPrecision ⟨⟨2024, 2, 29, by decide⟩,
          ⟨86399, 999999999, by decide⟩, .seconds⟩ .micros).toBytes =
        some ⟨⟨2024, 2, 29, by decide⟩, time, .micros⟩ ∧
      TimeOfDay.IsTruncation 1000 ⟨86399, 999999999, by decide⟩ time) ∧
    (∃ time, TimeOnly.parse? (TimeOnly.toBytes ⟨⟨86399, 999999999, by decide⟩, .seconds⟩) =
        some ⟨time, .millis⟩ ∧
      TimeOfDay.IsTruncation 1000000000 ⟨86399, 999999999, by decide⟩ time) ∧
    Date.parse? (Date.toBytes ⟨2024, 2, 29, by decide⟩) = some ⟨2024, 2, 29, by decide⟩ ∧
    (Timestamp.parse? (Timestamp.toBytes ⟨⟨1969, 12, 31, by decide⟩,
          ⟨86399, 999000000, by decide⟩, .millis⟩) =
        some ⟨⟨1969, 12, 31, by decide⟩, ⟨86399, 999000000, by decide⟩, .millis⟩ ∧
      Timestamp.epochMillis ⟨⟨1969, 12, 31, by decide⟩, ⟨86399, 999000000, by decide⟩,
        .millis⟩ = -1) := by
  have hmillis : Timestamp.ofEpochMillis? (-1) = some ⟨⟨1969, 12, 31, by decide⟩,
      ⟨86399, 999000000, by decide⟩, .millis⟩ := by decide
  exact ⟨times_read_back_truncated.1 _ .micros (by decide) (by decide),
    times_read_back_truncated.2.1 _ (by decide),
    (times_read_back_truncated.2.2.1 _).2 (by decide),
    times_read_back_truncated.2.2.2 _ _ hmillis (by decide)⟩

end FixEngine
