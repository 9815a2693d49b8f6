import Daybook.Date.Calendar

/-!
# Dates by a pattern

A pattern is a text with places for parts of a date. A place begins with a percent sign and
ends with a letter that names the part; between them may stand marks that say how numbers are
filled up and whether letters are large, and a width. Whatever is no place is written as it
is. A date has no time of day, so times are those of its first moment.
-/
namespace Daybook.Date.Pattern

/-- How a part is written. -/
structure Style where
  /-- What numbers are filled up with, unless the part says so itself: nothing stands for no
  filling at all. -/
  pad : Option (Option Char) := none
  large : Bool := false
  width : Nat := 0
  deriving DecidableEq, Repr

/-- The marks at the beginning of a place, and what follows them. -/
def marks (style : Style) : Text → Style × Text
  | '-' :: rest => marks { style with pad := some none } rest
  | '_' :: rest => marks { style with pad := some (some ' ') } rest
  | '0' :: rest => marks { style with pad := some (some '0') } rest
  | '^' :: rest => marks { style with large := true } rest
  | rest => (style, rest)

/-- The marks and the width at the beginning of a place, and what follows them. -/
def style (text : Text) : Style × Text :=
  let (style, rest) := marks {} text
  let digits := rest.takeWhile Char.isDigit
  ({ style with width := Nat.ofDigitChars 10 digits 0 }, rest.drop digits.length)

/-- A number that has `width` digits filled up with `pad`, unless the style says otherwise. -/
def number (style : Style) (pad : Char) (width value : Nat) : Text :=
  match style.pad with
  | some none => Text.padLeft ' ' style.width (Text.decimal value)
  | some (some c) => Text.padLeft c (max width style.width) (Text.decimal value)
  | none => Text.padLeft pad (max width style.width) (Text.decimal value)

/-- A word in the given style. -/
def word (style : Style) (text : Text) : Text :=
  let text := if style.large then text.map Char.toUpper else text
  Text.padLeft (if style.pad = some (some '0') then '0' else ' ') style.width text

/-- The short form of a name. -/
def short (name : Text) : Text :=
  name.take 3

/-- The date of the day in the American order. -/
def slashed (date : Date) : Text :=
  Text.padLeft '0' 2 (Text.decimal date.month) ++ "/" ++
    Text.padLeft '0' 2 (Text.decimal date.day) ++ "/" ++
    Text.padLeft '0' 2 (Text.decimal (date.year % 100))

/-- The date of the day in words, with the time. -/
def inWords (date : Date) : Text :=
  short date.weekdayName ++ " " ++ short date.monthName ++ " " ++
    Text.padLeft ' ' 2 (Text.decimal date.day) ++ " 00:00:00 " ++ Text.decimal date.year

/-- The part of a date that a letter names, if it names one. -/
def part? (style : Style) (date : Date) : Char → Option Text
  | 'Y' => some (number style '0' 1 date.year)
  | 'C' => some (number style '0' 1 (date.year / 100))
  | 'y' => some (number style '0' 2 (date.year % 100))
  | 'G' => some (number style '0' 1 date.week.1)
  | 'g' => some (number style '0' 2 (date.week.1 % 100))
  | 'm' => some (number style '0' 2 date.month)
  | 'd' => some (number style '0' 2 date.day)
  | 'e' => some (number style ' ' 2 date.day)
  | 'j' => some (number style '0' 3 date.dayOfYear)
  | 'U' => some (number style '0' 2 (date.weekFrom 6))
  | 'W' => some (number style '0' 2 (date.weekFrom 0))
  | 'V' => some (number style '0' 2 date.week.2)
  | 'u' => some (number style '0' 1 (date.weekday + 1))
  | 'w' => some (number style '0' 1 ((date.weekday + 1) % 7))
  | 'a' => some (word style (short date.weekdayName))
  | 'A' => some (word style date.weekdayName)
  | 'b' => some (word style (short date.monthName))
  | 'h' => some (word style (short date.monthName))
  | 'B' => some (word style date.monthName)
  | 'c' => some (word style (inWords date))
  | 'x' => some (word style (slashed date))
  | 'D' => some (word style (slashed date))
  | 'F' => some (word style (Text.decimal date.year ++ date.iso.drop 4))
  | 'X' => some (word style "00:00:00")
  | 'T' => some (word style "00:00:00")
  | 'R' => some (word style "00:00")
  | 'r' => some (word style "12:00:00 AM")
  | 'H' => some (number style '0' 2 0)
  | 'k' => some (number style ' ' 2 0)
  | 'I' => some (number style '0' 2 12)
  | 'l' => some (number style ' ' 2 12)
  | 'M' => some (number style '0' 2 0)
  | 'S' => some (number style '0' 2 0)
  | 'p' => some (word style "AM")
  | 'P' => some (word { style with large := false } "am")
  | 'n' => some ['\n']
  | 't' => some ['\t']
  | '%' => some ['%']
  | 'f' => if style = {} then some "000000" else none
  | 'z' => some []
  | 'Z' => some []
  | _ => none

/-- A date written by a pattern. The allowance bounds the number of its characters. -/
def writeFrom (date : Date) : Nat → Text → Text
  | 0, text => text
  | _, [] => []
  | allowance + 1, '%' :: rest =>
    let (style, after) := style rest
    let letter := if after.head? = some 'E' ∨ after.head? = some 'O' then after.drop 1 else after
    match letter with
    | c :: rest' =>
      match part? style date c with
      | some written => written ++ writeFrom date allowance rest'
      | none => '%' :: writeFrom date allowance rest
    | [] => '%' :: writeFrom date allowance rest
  | allowance + 1, c :: rest => c :: writeFrom date allowance rest

end Daybook.Date.Pattern

namespace Daybook.Date

/-- A date written by a pattern. -/
def writeBy (pattern : Text) (date : Date) : Text :=
  Pattern.writeFrom date (pattern.length + 1) pattern

end Daybook.Date
