import Daybook.Fraction
import Daybook.Yaml

/-!
# Numbers in a settings file

A whole number is written in base two, eight, ten or sixteen, or in base sixty with colons
between its parts; a number with a point in base ten or sixty. Underscores between the digits
count for nothing.

Which texts are numbers without a tag that says so is decided by their form alone. A text that
a tag calls a number is read more liberally, and may turn out to be none.
-/
namespace Daybook.Yaml

/-- A text after its sign, if it has one. -/
def unsigned : Text → Text
  | '-' :: rest => rest
  | '+' :: rest => rest
  | text => text

/-- Digits and underscores of which the digits satisfy `sort`; at least one character. -/
def isDigits (sort : Char → Bool) (text : Text) : Bool :=
  !text.isEmpty && text.all fun c => sort c || c == '_'

/-- The digits of the base eight. -/
def isOctal (c : Char) : Bool := '0' ≤ c && c ≤ '7'

/-- The digits of the base sixteen. -/
def isHexadecimal (c : Char) : Bool := (Text.hexValue c).isSome

/-- The digits of the base two. -/
def isBinary (c : Char) : Bool := c == '0' || c == '1'

/-- A decimal number that does not begin with an underscore. -/
def isDecimal (text : Text) : Bool :=
  isDigits Char.isDigit text && text.head? != some '_'

/-- A part of a number in base sixty after its first one. -/
def isSixtieth : Text → Bool
  | [c] => c.isDigit
  | [c, d] => '0' ≤ c && c ≤ '5' && d.isDigit
  | _ => false

/-- A number in base sixty, which has at least two parts. -/
def isSexagesimal (text : Text) : Bool :=
  match text.splitOn ':' with
  | first :: second :: rest => isDecimal first && (second :: rest).all isSixtieth
  | _ => false

/-- A text is a whole number by its form. -/
def isWhole (text : Text) : Bool :=
  match unsigned text with
  | '0' :: 'b' :: rest => isDigits isBinary rest
  | '0' :: 'x' :: rest => isDigits isHexadecimal rest
  | ['0'] => true
  | '0' :: rest => isDigits isOctal rest
  | rest => isDecimal rest || isSexagesimal rest

/-- The exponent of a number with a point, or nothing. -/
def isExponent : Text → Bool
  | [] => true
  | mark :: sign :: digits =>
    (mark == 'e' || mark == 'E') && (sign == '-' || sign == '+') && !digits.isEmpty &&
      digits.all Char.isDigit
  | _ => false

/-- A text is a number with a point by its form. -/
def isFraction (text : Text) : Bool :=
  let rest := unsigned text
  let isPart (c : Char) : Bool := c.isDigit || c == '_'
  if [".inf", ".Inf", ".INF"].any fun word => rest = word.toList then true
  else if [".nan", ".NaN", ".NAN"].any fun word => text = word.toList then true
  else match Text.cutAt '.' rest with
    | none => false
    | some (whole, decimals) =>
      let after := decimals.dropWhile isPart
      if whole = [] then
        text.head? = some '.' && (decimals.headD ' ').isDigit && isExponent after
      else if isDecimal whole then isExponent after
      else isSexagesimal whole && after = []

/-- The whole number that digits write in a base. -/
def wholeIn (base : Nat) (digits : Text) : Except Fault Int :=
  (Text.integer base digits).mapError (Fault.notWhole base digits)

/-- The whole number of a text without a sign. -/
def sizeOf : Text → Except Fault Int
  | [] => .error .emptyNumber
  | ['0'] => .ok 0
  | '0' :: 'b' :: digits => wholeIn 2 digits
  | '0' :: 'x' :: digits => wholeIn 16 digits
  | '0' :: digits => wholeIn 8 ('0' :: digits)
  | text =>
    if ':' ∈ text then do
      let parts ← (text.splitOn ':').mapM (wholeIn 10)
      return parts.foldl (fun value part => 60 * value + part) 0
    else wholeIn 10 text

/-- The whole number that a text is said to be. -/
def wholeOf (text : Text) : Except Fault Int := do
  let digits := text.filter (· ≠ '_')
  if digits = [] then throw .emptyNumber
  let size ← sizeOf (unsigned digits)
  return if digits.head? = some '-' then -size else size

/-- The number that decimal digits write. -/
def fractionIn (digits : Text) : Except Fault Fraction :=
  match Fraction.ofText? digits with
  | some value => .ok value
  | none => .error (.notAFraction digits)

/-- The sum of parts in base sixty, the last of which counts `unit`. -/
def sumOfSixtieths (parts : List Fraction) : Fraction :=
  (parts.reverse.foldl (fun (sum, unit) part =>
    (sum.add (part.multiply (.ofInt unit)), 60 * unit)) ((.ofInt 0 : Fraction), (1 : Int))).1

/-- The number with a point of a text without a sign. -/
def fractionSizeOf (text : Text) : Except Fault Fraction :=
  if text = ".inf".toList then .ok (.infinite false)
  else if text = ".nan".toList then .ok .indefinite
  else if ':' ∈ text then do
    let parts ← (text.splitOn ':').mapM fractionIn
    return sumOfSixtieths parts
  else fractionIn text

/-- The number with a point that a text is said to be. -/
def fractionOf (text : Text) : Except Fault Fraction := do
  let digits := (text.filter (· ≠ '_')).map Char.toLower
  if digits = [] then throw .emptyNumber
  let size ← fractionSizeOf (unsigned digits)
  return if digits.head? = some '-' then size.negate else size

end Daybook.Yaml
