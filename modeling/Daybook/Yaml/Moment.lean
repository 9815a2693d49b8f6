import Daybook.Yaml

/-!
# Dates and moments in a settings file

A date is written as in the calendar, and a moment as a date, the letter `T` or blanks, and a
time of day, which may have a fraction of a second and a time zone. Reading finds the numbers
of a written moment; whether there is such a moment is a question of its own, in which the zone
comes first, then the date, and then the time of day.
-/
namespace Daybook.Yaml

/-- A time of day, and how many seconds it is ahead of universal time if that is known. -/
structure TimeOfDay where
  hour : Nat
  minute : Nat
  second : Nat
  microsecond : Nat
  zone : Option Int
  deriving DecidableEq

/-- A day, or a moment of it. -/
structure Moment where
  date : Date
  time : Option TimeOfDay
  deriving DecidableEq

/-- The numbers of a written moment, whether or not there is one. -/
structure WrittenMoment where
  year : Nat
  month : Nat
  day : Nat
  time : Option TimeOfDay
  deriving DecidableEq

namespace WrittenMoment

/-- One of at most `most` digits and at least `least`, and what follows them. -/
def number? (least most : Nat) (text : Text) : Option (Nat × Text) :=
  let digits := (text.take most).takeWhile Char.isDigit
  if digits.length < least then none
  else some (Nat.ofDigitChars 10 digits 0, text.drop digits.length)

/-- What follows a character. -/
def after? (c : Char) : Text → Option Text
  | [] => none
  | d :: rest => if c = d then some rest else none

/-- The text after its spaces and tabs. -/
def unspaced (text : Text) : Text :=
  text.dropWhile fun c => c == ' ' || c == '\t'

/-- The seconds of a zone without its sign, up to the end of the text. -/
def offset? (text : Text) : Option Nat := do
  let (hours, rest) ← number? 1 2 text
  match rest with
  | [] => return hours * 3600
  | ':' :: rest =>
    let (minutes, rest) ← number? 2 2 rest
    if rest = [] then return hours * 3600 + minutes * 60 else none
  | _ => none

/-- The zone that the rest of a text writes, or nothing where nothing is left. -/
def zone? (text : Text) : Option (Option Int) :=
  if text = [] then some none
  else match unspaced text with
    | ['Z'] => some (some 0)
    | '+' :: rest => (offset? rest).map fun seconds => some (Int.ofNat seconds)
    | '-' :: rest => (offset? rest).map fun seconds => some (-Int.ofNat seconds)
    | _ => none

/-- The digits of a fraction of a second, and what follows them. -/
def fraction : Text → Text × Text
  | '.' :: rest => (rest.takeWhile Char.isDigit, rest.dropWhile Char.isDigit)
  | text => ([], text)

/-- The time of day that a whole text writes. -/
def time? (text : Text) : Option TimeOfDay := do
  let (hour, rest) ← number? 1 2 text
  let (minute, rest) ← number? 2 2 (← after? ':' rest)
  let (second, rest) ← number? 2 2 (← after? ':' rest)
  let (digits, rest) := fraction rest
  let zone ← zone? rest
  let sixDigits := (digits ++ List.replicate 6 '0').take 6
  return { hour, minute, second, microsecond := Nat.ofDigitChars 10 sixDigits 0, zone }

/-- The moment that a whole text writes. -/
def ofText? (text : Text) : Option WrittenMoment := do
  let (year, rest) ← number? 4 4 text
  let (month, rest) ← number? 1 2 (← after? '-' rest)
  let (day, rest) ← number? 1 2 (← after? '-' rest)
  match rest with
  | [] => return { year, month, day, time := none }
  | mark :: rest =>
    let time ←
      if mark = 'T' ∨ mark = 't' then time? rest
      else if mark = ' ' ∨ mark = '\t' then time? (unspaced rest)
      else none
    return { year, month, day, time := some time }

/-- A plain scalar that is a moment. A date alone has all its ten characters. -/
def isPlain (text : Text) : Bool :=
  match ofText? text with
  | some written => written.time.isSome || text.length == 10
  | none => false

/-- What is wrong with a zone, if anything is. -/
def zoneFault? (time : TimeOfDay) : Option TimeFault :=
  match time.zone with
  | some seconds => if 86400 ≤ seconds.natAbs then some (.zone seconds) else none
  | none => none

/-- What is wrong with a time of day, if anything is. -/
def timeFault? (time : TimeOfDay) : Option TimeFault :=
  if 23 < time.hour then some .hour
  else if 59 < time.minute then some .minute
  else if 59 < time.second then some .second
  else none

/-- The moment of the numbers, if there is one. -/
def moment (written : WrittenMoment) : Except Fault Moment := do
  if let some fault := written.time.bind zoneFault? then throw (.noSuchTime fault)
  let date ← (Date.ofNumbers written.year written.month written.day).mapError Fault.noSuchDay
  if let some fault := written.time.bind timeFault? then throw (.noSuchTime fault)
  return { date, time := written.time }

end WrittenMoment

namespace Moment

/-- A length of time in days and seconds, as it is displayed. -/
def displayLength (seconds : Int) : Text :=
  let days := seconds.fdiv 86400
  let rest := seconds.fmod 86400
  let part (name : Text) (n : Int) : List Text :=
    if n = 0 then [] else [name ++ '=' :: Text.signedDecimal n]
  let parts := part "days" days ++ part "seconds" rest
  "datetime.timedelta(" ++ (if parts = [] then ['0'] else List.intercalate ", " parts) ++ ")"

/-- The display form of a zone. -/
def displayZone (seconds : Int) : Text :=
  if seconds = 0 then "datetime.timezone.utc"
  else "datetime.timezone(" ++ displayLength seconds ++ ")"

/-- The display form of a day or a moment. Seconds are left out where they are zero, together
with what comes after them. -/
def display (moment : Moment) : Text :=
  let date := moment.date
  let day := [date.year, date.month, date.day]
  let listed (numbers : List Nat) : Text := List.intercalate ", " (numbers.map Text.decimal)
  match moment.time with
  | none => "datetime.date(" ++ listed day ++ ")"
  | some time =>
    let small :=
      if time.microsecond ≠ 0 then [time.second, time.microsecond]
      else if time.second ≠ 0 then [time.second]
      else []
    let zone : Text := match time.zone with
      | some seconds => ", tzinfo=" ++ displayZone seconds
      | none => []
    "datetime.datetime(" ++ listed (day ++ [time.hour, time.minute] ++ small) ++ zone ++ ")"

end Moment

/-- What is wrong with a time, in words. -/
def TimeFault.message : TimeFault → Text
  | .hour => "hour must be in 0..23"
  | .minute => "minute must be in 0..59"
  | .second => "second must be in 0..59"
  | .zone seconds =>
    "offset must be a timedelta strictly between -timedelta(hours=24) and timedelta(hours=24)," ++
      " not " ++ Moment.displayLength seconds ++ "."

end Daybook.Yaml
