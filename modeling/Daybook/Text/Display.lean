import Daybook.Text.Numeral
import Daybook.Text.Visible

/-!
# The display form of a text

Messages quote the text they complain about. The display form stands between
single quotation marks, or between double ones when the text holds a single mark
and no double one, and escapes whatever could not be seen or would end it early.
-/
namespace Daybook.Text

/-- An invisible character by its code, in the shortest of the three forms. -/
def codeEscape (c : Char) : Text :=
  let code := c.toNat
  if code < 0x100 then "\\x" ++ hexadecimal 2 code
  else if code < 0x10000 then "\\u" ++ hexadecimal 4 code
  else "\\U" ++ hexadecimal 8 code

/-- One character of a display form between the given marks. -/
def displayChar (mark c : Char) : Text :=
  if c = mark ∨ c = '\\' then ['\\', c]
  else if c = '\n' then "\\n"
  else if c = '\r' then "\\r"
  else if c = '\t' then "\\t"
  else if isVisible c then [c]
  else codeEscape c

/-- The display form of a text. -/
def display (text : Text) : Text :=
  let mark := if text.contains '\'' && !text.contains '"' then '"' else '\''
  mark :: text.flatMap (displayChar mark) ++ [mark]

/-- One byte of a display form between the given marks. Only bytes of the basic set stand for
themselves. -/
def displayByte (mark : Char) (byte : UInt8) : Text :=
  if byte < 0x7F then displayChar mark (Char.ofNat byte.toNat)
  else "\\x" ++ hexadecimal 2 byte.toNat

/-- The display form of a byte string. -/
def displayBytes (bytes : Bytes) : Text :=
  let mark := if bytes.contains 0x27 && !bytes.contains 0x22 then '"' else '\''
  'b' :: mark :: bytes.flatMap (displayByte mark) ++ [mark]

/-- The characters at the beginning of a text that have room in the given number of bytes. -/
def within (room : Nat) : Text → Text
  | [] => []
  | c :: rest => if c.utf8Size ≤ room then c :: within (room - c.utf8Size) rest else []

/-- A text of more than fifty bytes without its middle part. -/
def abridged (text : Text) : Text :=
  if within 50 text = text then text
  else within 25 text ++ "..." ++ (within 24 text.reverse).reverse

/-- What is wrong with a numeral in words, with the base it is read in and the beginning of
what was written. -/
def NumeralFault.message (base : Nat) (written : Text) : NumeralFault → Text
  | .malformed =>
    "invalid literal for int() with base " ++ decimal base ++ ": " ++ (display written).take 200
  | .tooManyDigits count =>
    "Exceeds the limit (" ++ decimal mostDigits ++
      " digits) for integer string conversion: value has " ++ decimal count ++
      " digits; use sys.set_int_max_str_digits() to increase the limit"

/-- What is wrong in words with a whole number that has too many digits to be written. -/
def unwritableNumber : Text :=
  "Exceeds the limit (" ++ decimal mostDigits ++
    " digits) for integer string conversion; use sys.set_int_max_str_digits() to increase the" ++
    " limit"

end Daybook.Text
