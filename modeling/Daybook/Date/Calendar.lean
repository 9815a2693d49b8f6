import Daybook.Date

/-!
# The days of the calendar

The days are counted from the first day of the year 1. From the count follow the day of the
week, which begins with Monday, and the day of the year. A week belongs to the year that its
Thursday lies in, and the weeks of a year are counted from 1.
-/
namespace Daybook.Date

/-- The number of days before a year. -/
def daysBeforeYear (year : Nat) : Nat :=
  let past := year - 1
  past * 365 + past / 4 - past / 100 + past / 400

/-- The number of days of a year before a month. -/
def daysBeforeMonth (year month : Nat) : Nat :=
  (List.range (month - 1)).foldl (fun days n => days + daysIn year (n + 1)) 0

/-- The day of the year, from 1 on. -/
def dayOfYear (date : Date) : Nat :=
  daysBeforeMonth date.year date.month + date.day

/-- The number of a day, from 1 on. -/
def ordinal (date : Date) : Nat :=
  daysBeforeYear date.year + date.dayOfYear

/-- The day of the week, from 0 on for a Monday. -/
def weekday (date : Date) : Nat :=
  (date.ordinal + 6) % 7

/-- The year that the week of a date belongs to, and the number of the week in it. -/
def week (date : Date) : Nat × Nat :=
  let thursday := date.ordinal - date.weekday + 3
  let year :=
    if thursday ≤ daysBeforeYear date.year then date.year - 1
    else if daysBeforeYear (date.year + 1) < thursday then date.year + 1
    else date.year
  (year, (thursday - daysBeforeYear year - 1) / 7 + 1)

/-- The number of the week of the year when the first day of the week is `first`, counted from
a Monday on; the days before the first such day lie in week 0. -/
def weekFrom (first : Nat) (date : Date) : Nat :=
  (date.dayOfYear + 6 - (date.weekday + 7 - first) % 7) / 7

/-- The English names of the days of the week. -/
def weekdayNames : List Text :=
  ["Monday", "Tuesday", "Wednesday", "Thursday", "Friday", "Saturday", "Sunday"]

/-- The English name of the day of the week. -/
def weekdayName (date : Date) : Text :=
  weekdayNames.getD date.weekday []

/-- A day of the week is one of seven. -/
theorem weekday_lt (date : Date) : date.weekday < 7 :=
  Nat.mod_lt _ (by decide)

end Daybook.Date
