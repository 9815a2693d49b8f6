import Daybook.Text.Blank

/-!
# Numerals

Whole numbers are written in decimal without superfluous zeros and read from the
decimal digits of any script. A written number may carry a sign, single
underscores between its digits, and blank space around it.
-/
namespace Daybook.Text

/-- A natural number in decimal. -/
def decimal (n : Nat) : Text :=
  Nat.toDigits 10 n

/-- A whole number in decimal, with a minus sign in front of a negative one. -/
def signedDecimal : Int → Text
  | .ofNat n => decimal n
  | .negSucc n => '-' :: decimal (n + 1)

/-- A natural number in lower-case hexadecimal with at least `width` digits. -/
def hexadecimal (width n : Nat) : Text :=
  padLeft '0' width (Nat.toDigits 16 n)

/-- The code points of the digit zero in the scripts that count in tens; the nine
other digits of a script follow its zero. -/
def scriptZeros : List Nat :=
  [0x30, 0x660, 0x6F0, 0x7C0, 0x966, 0x9E6, 0xA66, 0xAE6, 0xB66, 0xBE6, 0xC66, 0xCE6, 0xD66,
    0xDE6, 0xE50, 0xED0, 0xF20, 0x1040, 0x1090, 0x17E0, 0x1810, 0x1946, 0x19D0, 0x1A80, 0x1A90,
    0x1B50, 0x1BB0, 0x1C40, 0x1C50, 0xA620, 0xA8D0, 0xA900, 0xA9D0, 0xA9F0, 0xAA50, 0xABF0,
    0xFF10, 0x104A0, 0x10D30, 0x11066, 0x110F0, 0x11136, 0x111D0, 0x112F0, 0x11450, 0x114D0,
    0x11650, 0x116C0, 0x11730, 0x118E0, 0x11950, 0x11C50, 0x11D50, 0x11DA0, 0x16A60, 0x16AC0,
    0x16B50, 0x1D7CE, 0x1D7D8, 0x1D7E2, 0x1D7EC, 0x1D7F6, 0x1E140, 0x1E2F0, 0x1E950, 0x1FBF0]

/-- The value of a decimal digit of any script. -/
def digitValue (c : Char) : Option Nat :=
  (scriptZeros.find? fun start => start ≤ c.toNat && c.toNat < start + 10).map (c.toNat - ·)

/-- The value of a hexadecimal digit in either case. -/
def hexValue (c : Char) : Option Nat :=
  if '0' ≤ c ∧ c ≤ '9' then some (c.toNat - 0x30)
  else if 'a' ≤ c ∧ c ≤ 'f' then some (c.toNat - 0x61 + 10)
  else if 'A' ≤ c ∧ c ≤ 'F' then some (c.toNat - 0x41 + 10)
  else none

/-- Blank space that may surround a numeral. The information separators are blank
elsewhere and not here. -/
def surroundsNumeral (c : Char) : Bool :=
  isBlank c && !(0x1C ≤ c.toNat && c.toNat ≤ 0x1F)

/-- The value of a digit in a base of at most sixteen. -/
def digitIn (base : Nat) (c : Char) : Option Nat :=
  ((digitValue c).or (hexValue c)).filter fun value => value < base

/-- The number that digits continue, when `value` is the number read so far. An
underscore stands between two digits only. -/
def naturalFrom (base value : Nat) : Text → Option Nat
  | [] => some value
  | '_' :: c :: rest =>
    (digitIn base c).bind fun digit => naturalFrom base (base * value + digit) rest
  | c :: rest =>
    (digitIn base c).bind fun digit => naturalFrom base (base * value + digit) rest

/-- A natural number from its digits, of which there is at least one. -/
def natural? (base : Nat) : Text → Option Nat
  | [] => none
  | c :: rest => (digitIn base c).bind fun digit => naturalFrom base digit rest

/-- Why a text is no whole number. -/
inductive NumeralFault where
  /-- It is not written like one. -/
  | malformed
  /-- It is written like one, with more digits than are read. -/
  | tooManyDigits (count : Nat)
  deriving DecidableEq, Repr

/-- The largest number of decimal digits that are read. Zeros in front count like all
others. -/
def mostDigits : Nat := 4300

/-- The characters that a natural number is written with. -/
def isInNumeral (base : Nat) (c : Char) : Bool :=
  c == '_' || (digitIn base c).isSome

/-- A natural number from a text that holds nothing else. Decimal digits are counted before
it is seen whether they are all that there is. -/
def natural (base : Nat) (text : Text) : Except NumeralFault Nat :=
  let digits := text.takeWhile (isInNumeral base)
  match natural? base digits with
  | none => .error .malformed
  | some value =>
    let count := digits.countP (· ≠ '_')
    if base = 10 ∧ mostDigits < count then .error (.tooManyDigits count)
    else if digits.length < text.length then .error .malformed
    else .ok value

/-- The digits after the mark of their base, if there is one: `0b`, `0o` or `0x`, and perhaps
an underscore. -/
def afterMark (base : Nat) : Text → Text
  | '0' :: letter :: rest =>
    let mark := if base = 2 then 'b' else if base = 8 then 'o' else 'x'
    if base ≠ 10 ∧ letter.toLower = mark then
      if rest.head? = some '_' then rest.drop 1 else rest
    else '0' :: letter :: rest
  | text => text

/-- A text without the blank space that may surround a numeral. -/
def withoutSurroundings (text : Text) : Text :=
  ((text.dropWhile surroundsNumeral).reverse.dropWhile surroundsNumeral).reverse

/-- A whole number from a numeral: blank space, an optional sign, digits, blank space. -/
def integer (base : Nat) (text : Text) : Except NumeralFault Int :=
  match withoutSurroundings text with
  | '+' :: digits => (natural base (afterMark base digits)).map Int.ofNat
  | '-' :: digits => (natural base (afterMark base digits)).map fun n => -Int.ofNat n
  | digits => (natural base (afterMark base digits)).map Int.ofNat

end Daybook.Text
