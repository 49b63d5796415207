/-! # Moments

A moment is counted in seconds from the beginning of 1970, and is written as the date and the time
of day in the calendar without time zones.

## Implementation notes

The calendar repeats after 400 years, which have 146097 days. Inside these, years are counted from
March on, so that the day which a leap year adds is the last of its year. -/

namespace TableModels

/-- A moment since the beginning of 1970. -/
structure Moment where
  seconds : Nat
  nanoseconds : Nat
  deriving DecidableEq

/-- A day of the calendar. -/
structure CalendarDay where
  year : Nat
  month : Nat
  day : Nat
  deriving DecidableEq

/-- The day of the calendar that is so many days after the first of March of the year 0. -/
def CalendarDay.ofDays (days : Nat) : CalendarDay :=
  let era := days / 146097
  let dayOfEra := days % 146097
  let yearOfEra := (dayOfEra - dayOfEra / 1460 + dayOfEra / 36524 - dayOfEra / 146096) / 365
  let dayOfYear := dayOfEra - (365 * yearOfEra + yearOfEra / 4 - yearOfEra / 100)
  let monthFromMarch := (5 * dayOfYear + 2) / 153
  let month := if monthFromMarch < 10 then monthFromMarch + 3 else monthFromMarch - 9
  { year := era * 400 + yearOfEra + (if month ≤ 2 then 1 else 0)
    month
    day := dayOfYear - (153 * monthFromMarch + 2) / 5 + 1 }

theorem CalendarDay.ofDays_epoch : CalendarDay.ofDays 719468 = ⟨1970, 1, 1⟩ := by decide

theorem CalendarDay.ofDays_leapDay : CalendarDay.ofDays 730484 = ⟨2000, 2, 29⟩ := by decide

/-- Digits with zeros in front of them up to a width. -/
def zeroPadded (width : Nat) (digits : String) : String :=
  String.ofList (List.replicate (width - digits.length) '0') ++ digits

/-- A number in decimal, with zeros in front of it up to a width. -/
def paddedDecimal (width n : Nat) : String :=
  zeroPadded width (toString n)

namespace Moment

/-- The day of a moment. -/
def day (moment : Moment) : CalendarDay :=
  .ofDays (moment.seconds / 86400 + 719468)

/-- The date of a moment. -/
def date (moment : Moment) : String :=
  String.intercalate "-"
    [paddedDecimal 4 moment.day.year, paddedDecimal 2 moment.day.month,
      paddedDecimal 2 moment.day.day]

/-- The time of day of a moment, its parts divided by a text. -/
def time (separator : String) (moment : Moment) : String :=
  String.intercalate separator
    [paddedDecimal 2 (moment.seconds / 3600 % 24), paddedDecimal 2 (moment.seconds / 60 % 60),
      paddedDecimal 2 (moment.seconds % 60)]

/-- The part of a second that a moment has, with as many groups of three digits as it needs. -/
def fraction (moment : Moment) : String :=
  if moment.nanoseconds = 0 then ""
  else if moment.nanoseconds % 1000000 = 0 then
    "." ++ paddedDecimal 3 (moment.nanoseconds / 1000000)
  else if moment.nanoseconds % 1000 = 0 then "." ++ paddedDecimal 6 (moment.nanoseconds / 1000)
  else "." ++ paddedDecimal 9 moment.nanoseconds

/-- The moment as a name of a file can hold it. -/
def label (moment : Moment) : String :=
  moment.date ++ "T" ++ moment.time "-" ++ "Z"

/-- The moment in full. -/
def text (moment : Moment) : String :=
  moment.date ++ "T" ++ moment.time ":" ++ moment.fraction ++ "+00:00"

end Moment

end TableModels
