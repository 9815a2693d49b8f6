import Daybook.Text.Numeral

/-!
# Calendar dates

A date is a day of the Gregorian calendar in one of the years 1 to 9999. It is
written as year, month and day with hyphens between them, and read from any three
numerals between hyphens. What goes wrong in reading is kept as its cause; the
wording of each cause is given once, at the end.
-/
namespace Daybook

namespace Date

/-- Leap years are the multiples of four, without those centuries that are no
multiples of four hundred. -/
def isLeap (year : Nat) : Bool :=
  year % 4 == 0 && (year % 100 != 0 || year % 400 == 0)

/-- The number of days of a month. -/
def daysIn (year : Nat) : Nat → Nat
  | 2 => if isLeap year then 29 else 28
  | 4 => 30
  | 6 => 30
  | 9 => 30
  | 11 => 30
  | _ => 31

/-- The three numbers name a day of the calendar. -/
def Valid (year month day : Nat) : Prop :=
  (1 ≤ year ∧ year ≤ 9999) ∧ (1 ≤ month ∧ month ≤ 12) ∧ (1 ≤ day ∧ day ≤ daysIn year month)

instance (year month day : Nat) : Decidable (Valid year month day) :=
  inferInstanceAs (Decidable (_ ∧ _ ∧ _))

end Date

/-- A day of the calendar. -/
structure Date where
  year : Nat
  month : Nat
  day : Nat
  valid : Date.Valid year month day
  deriving DecidableEq

namespace Date

/-- A number that cannot even be compared with the calendar, because it does not fit
the machine word that holds a part of a date. -/
inductive Overflow where
  /-- Beyond 64 bits. -/
  | beyondWord
  /-- Above the largest number of 32 bits. -/
  | aboveMaximum
  /-- Below the least number of 32 bits. -/
  | belowMinimum
  deriving DecidableEq, Repr

/-- Why a text is no date. -/
inductive Fault where
  /-- A part between hyphens is no numeral. -/
  | notANumber (part : Text) (fault : Text.NumeralFault)
  | missingMonth
  | missingDay
  | tooManyParts (count : Nat)
  | yearOutOfRange (year : Int)
  | monthOutOfRange
  | dayOutOfRange
  /-- A part is too large for a date to hold. -/
  | overflow (cause : Overflow)
  deriving DecidableEq, Repr

/-- The ISO form: four, two and two digits with hyphens between them. -/
def iso (date : Date) : Text :=
  Text.padLeft '0' 4 (Text.decimal date.year) ++ "-" ++
    Text.padLeft '0' 2 (Text.decimal date.month) ++ "-" ++
    Text.padLeft '0' 2 (Text.decimal date.day)

/-- The English names of the months. -/
def monthNames : List Text :=
  ["January", "February", "March", "April", "May", "June", "July", "August", "September",
    "October", "November", "December"]

/-- The English name of the month of a date. -/
def monthName (date : Date) : Text :=
  monthNames.getD (date.month - 1) []

/-- Holds a number against the word that has to hold it. -/
def fit (number : Int) : Except Fault Unit :=
  if number < -9223372036854775808 ∨ 9223372036854775808 ≤ number then
    .error (.overflow .beyondWord)
  else if 2147483648 ≤ number then .error (.overflow .aboveMaximum)
  else if number < -2147483648 then .error (.overflow .belowMinimum)
  else .ok ()

/-- The date of a year, a month and a day. The first part out of range is at fault,
the day last of all because its range depends on the others. -/
def ofNumbers (year month day : Int) : Except Fault Date :=
  if valid : Valid year.toNat month.toNat day.toNat then
    .ok ⟨year.toNat, month.toNat, day.toNat, valid⟩
  else if year < 1 ∨ 9999 < year then .error (.yearOutOfRange year)
  else if month < 1 ∨ 12 < month then .error .monthOutOfRange
  else .error .dayOutOfRange

/-- The date of the parts between the hyphens. All parts have to be numerals; then
their count is held against three; then each has to fit its word, and one that does
not is found before one that is missing. -/
def ofParts (parts : List Text) : Except Fault Date := do
  let numbers ← parts.mapM fun part => (Text.integer 10 part).mapError (Fault.notANumber part)
  match numbers with
  | [] => .error .missingMonth
  | [year] => do
    fit year
    .error .missingMonth
  | [year, month] => do
    fit year
    fit month
    .error .missingDay
  | [year, month, day] => do
    fit year
    fit month
    fit day
    ofNumbers year month day
  | more => .error (.tooManyParts more.length)

/-- The date that a text names. -/
def ofText (written : Text) : Except Fault Date :=
  ofParts (written.splitOn '-')

/-- The overflow in words. -/
def Overflow.message : Overflow → Text
  | .beyondWord => "Python int too large to convert to C long"
  | .aboveMaximum => "signed integer is greater than maximum"
  | .belowMinimum => "signed integer is less than minimum"

end Date

end Daybook
