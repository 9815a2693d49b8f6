import Daybook.Text.Phrase

/-!
# Quoted texts

A quoted text stands between double quotation marks. Inside, a quotation mark, a
reverse solidus and every control character below U+0020 is escaped, so a quoted
text never spans two lines and never ends early.

Reading is more liberal than writing: it knows further escapes, and a text that is
not properly quoted keeps its characters as they stand, without the first and the
last of them. What is read is a phrase, since a numeric escape may leave half a pair alone.
-/
namespace Daybook.Text.Quoted

/-- One character as it is written between the quotation marks. -/
def encodeChar (c : Char) : Text :=
  if c = '"' then "\\\""
  else if c = '\\' then "\\\\"
  else if c = '\n' then "\\n"
  else if c = '\r' then "\\r"
  else if c = '\t' then "\\t"
  else if c = '\x08' then "\\b"
  else if c = '\x0c' then "\\f"
  else if c.toNat < 0x20 then "\\u" ++ hexadecimal 4 c.toNat
  else [c]

/-- The quoted form of a text. -/
def encode (text : Text) : Text :=
  '"' :: text.flatMap encodeChar ++ ['"']

/-- The quoted form of a phrase. Half a pair that stands alone is written as it is. -/
def encodePhrase (phrase : Phrase) : Phrase :=
  .char '"' :: phrase.flatMap (fun point =>
    match point with
    | .char c => Phrase.ofText (encodeChar c)
    | .half number => [.half number]) ++ [.char '"']

/-- What an escape of one letter stands for. -/
def escaped? : Char → Option Char
  | '"' => some '"'
  | '\\' => some '\\'
  | '/' => some '/'
  | 'b' => some '\x08'
  | 'f' => some '\x0c'
  | 'n' => some '\n'
  | 'r' => some '\r'
  | 't' => some '\t'
  | _ => none

/-- The number that four hexadecimal digits write. -/
def unit? (a b c d : Char) : Option Nat := do
  let a ← hexValue a
  let b ← hexValue b
  let c ← hexValue c
  let d ← hexValue d
  return ((a * 16 + b) * 16 + c) * 16 + d

/-- Reads up to the closing quotation mark: the code units of the text and what
follows the mark. A numeric escape is one code unit and so is every character. -/
def units? : Text → Option (List Nat × Text)
  | [] => none
  | '"' :: rest => some ([], rest)
  | '\\' :: 'u' :: a :: b :: c :: d :: rest => do
    let unit ← unit? a b c d
    let (units, after) ← units? rest
    return (unit :: units, after)
  | '\\' :: letter :: rest => do
    let c ← escaped? letter
    let (units, after) ← units? rest
    return (c.toNat :: units, after)
  | c :: rest => do
    if c = '\\' ∨ c.toNat < 0x20 then none
    let (units, after) ← units? rest
    return (c.toNat :: units, after)

/-- A code unit by itself. One half of a pair stands for no character. -/
def single (unit : Nat) : Point :=
  if unit.isValidChar then .char (Char.ofNat unit) else .half (Fin.ofNat 0x800 (unit - 0xD800))

/-- The phrase of code units: a high and a low half next to each other make one
character together, and every other half stands alone. -/
def joinHalves : List Nat → Phrase
  | [] => []
  | [unit] => [single unit]
  | high :: low :: rest =>
    if 0xD800 ≤ high ∧ high < 0xDC00 ∧ 0xDC00 ≤ low ∧ low < 0xE000 then
      .char (Char.ofNat (0x10000 + (high - 0xD800) * 0x400 + (low - 0xDC00))) :: joinHalves rest
    else single high :: joinHalves (low :: rest)

/-- The phrase of a quotation that has just been opened, and what follows it. -/
def opened? (text : Text) : Option (Phrase × Text) :=
  (units? text).map fun (units, after) => (joinHalves units, after)

/-- White space that may surround a quoted text. -/
def surrounds (c : Char) : Bool :=
  c == ' ' || c == '\t' || c == '\n' || c == '\r'

/-- The phrase of a proper quotation, and nothing for any other text. -/
def decode? (text : Text) : Option Phrase :=
  match text.dropWhile surrounds with
  | '"' :: rest =>
    match opened? rest with
    | some (inner, after) => if after.all surrounds then some inner else none
    | none => none
  | _ => none

/-- A text without its first and its last character. -/
def bare (text : Text) : Text :=
  (text.drop 1).dropLast

/-- The phrase that a quotation stands for. Where the quotation is not a proper one,
what stands between its marks is taken as it is. -/
def decode (text : Text) : Phrase :=
  (decode? text).getD (bare text)

end Daybook.Text.Quoted
