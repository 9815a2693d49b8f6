import Daybook.Template.Reckoning
import Daybook.Template.Style

/-!
# Patterns

A pattern is a text with places for values. A place begins with a percent sign, which a key in
brackets, marks, a width and a precision may follow, and ends with a letter: `s`, `r` and `a`
write any value, `d`, `i`, `u`, `o`, `x` and `X` a whole number, `e`, `f` and `g` a number with a
point, and `c` a character. Every place takes one value and every value has to have a place,
unless values are taken from a record by their keys.
-/
namespace Daybook.Template.Pattern

/-- A text in the display form, with escapes for all characters outside of the basic set. -/
def basic (text : Text) : Text :=
  text.flatMap fun c => if c.toNat < 0x80 then [c] else Text.codeEscape c

/-- The number with a point that a value counts as. -/
def fraction (value : Datum) : Except Fault Fraction :=
  match value with
  | .undefined forbidden => .error (Datum.refusal forbidden)
  | value =>
    match value.quantity? with
    | some number => number.toFraction
    | none => .error (.mismatch ("must be real number, not " ++ value.kind))

/-- The whole part of a number with a point. -/
def wholePart (value : Fraction) : Except Fault Int :=
  match value.truncate? with
  | some n => .ok n
  | none =>
    if value = .indefinite then .error (.unacceptable "cannot convert float NaN to integer")
    else .error (.overflow "cannot convert float infinity to integer")

/-- The whole number that a value counts as at a place for decimal numbers. -/
def decimal (letter : Char) (value : Datum) : Except Fault Int :=
  match value with
  | .undefined forbidden => .error (Datum.refusal forbidden)
  | value =>
    match value.quantity? with
    | some (.whole n) => .ok n
    | some (.fraction x) => wholePart x
    | none =>
      .error (.mismatch ('%' :: letter :: (" format: a real number is required, not ".toList ++
        value.kind)))

/-- The whole number that a value counts as at a place for numbers in another base. -/
def based (letter : Char) (value : Datum) : Except Fault Int :=
  match value.whole? with
  | some n => .ok n
  | none =>
    .error (.mismatch ('%' :: letter :: (" format: an integer is required, not ".toList ++
      value.kind)))

/-- The character that a value counts as. -/
def character (value : Datum) : Except Fault Char :=
  match value with
  | .text [c] => .ok c
  | value =>
    match value.whole? with
    | some (.ofNat n) =>
      if Nat.isValidChar n then .ok (Char.ofNat n)
      else .error (.overflow "%c arg not in range(0x110000)")
    | some (.negSucc _) => .error (.overflow "%c arg not in range(0x110000)")
    | none => .error (.mismatch "%c requires int or char")

/-- A value at a place that ends with the letter at the given position of the pattern. -/
def write (style : Style) (letter : Char) (position : Nat) (value : Datum) : Except Fault Text :=
  let plain : Style :=
    { style with fill := ' ', place := if style.place = .apart then .right else style.place }
  match letter with
  | 's' => .ok (plain.text value.print)
  | 'r' => .ok (plain.text value.display)
  | 'a' => .ok (plain.text (basic value.display))
  | 'c' => (character value).map fun c => { plain with precision := none }.text [c]
  | letter =>
    if letter = 'd' ∨ letter = 'i' ∨ letter = 'u' then
      (decimal letter value).map (style.whole 'd')
    else if letter = 'o' ∨ letter = 'x' ∨ letter = 'X' then
      (based letter value).map (style.whole letter)
    else if "eEfFgG".toList.contains letter then
      (fraction value).map (style.fraction letter)
    else
      .error (.unacceptable ("unsupported format character '" ++
        (if 31 ≤ letter.toNat ∧ letter.toNat < 126 then [letter] else ['?']) ++ "' (0x" ++
        Nat.toDigits 16 letter.toNat ++ ") at index " ++ Text.decimal position))

/-- The marks at the beginning of a place, and what follows them. -/
def marks (style : Style) : Text → Style × Text
  | '-' :: rest => marks { style with place := .left } rest
  | '+' :: rest => marks { style with sign := ['+'] } rest
  | ' ' :: rest => marks { style with sign := if style.sign = [] then [' '] else style.sign } rest
  | '#' :: rest => marks { style with marked := true } rest
  | '0' :: rest =>
    marks { style with
      fill := '0', place := if style.place = .left then .left else .apart } rest
  | rest => (style, rest)

/-- The whole number at the beginning of a text or, at an asterisk, among the values. -/
def count (values : List Datum) : Text → Except Fault (Int × List Datum × Text)
  | '*' :: rest =>
    match values with
    | [] => .error (.mismatch "not enough arguments for format string")
    | value :: values =>
      match value.whole? with
      | some n => .ok (n, values, rest)
      | none => .error (.mismatch "* wants int")
  | text =>
    let digits := text.takeWhile Char.isDigit
    .ok (Int.ofNat (Nat.ofDigitChars 10 digits 0), values, text.drop digits.length)

/-- The style of a place with the given width. Below zero it means a place at the left. -/
def ofWidth (style : Style) (width : Int) : Style :=
  { style with
    width := width.natAbs
    place := if width < 0 then .left else style.place
    fill := if width < 0 ∨ style.place = .left then ' ' else style.fill }

/-- The key in brackets at the beginning of a text, and what follows the bracket that closes
it. -/
def key (depth : Nat) : Text → Option (Text × Text)
  | [] => none
  | ')' :: rest =>
    match depth with
    | 0 => some ([], rest)
    | depth + 1 => (key depth rest).map fun (inner, after) => (')' :: inner, after)
  | '(' :: rest => (key (depth + 1) rest).map fun (inner, after) => ('(' :: inner, after)
  | c :: rest => (key depth rest).map fun (inner, after) => (c :: inner, after)

/-- The values for a place, and what follows its key. A place with a key has the one value
that the record holds under the key. -/
def keyed (owner : Option Datum) (values : List Datum) : Text → Except Fault (List Datum × Text)
  | '(' :: rest =>
    match owner with
    | none => .error (.mismatch "format requires a mapping")
    | some owner =>
      match key 0 rest with
      | none => .error (.unacceptable "incomplete format key")
      | some (key, rest) => do
        match ← owner.entryAt? (.text key) with
        | some value => return ([value], rest)
        | none =>
          match owner with
          | .record _ _ => throw (.noSuchKey (Text.display key))
          | owner =>
            throw (.mismatch (owner.kind ++ " indices must be integers or slices, not str"))
  | rest => .ok (values, rest)

/-- A pattern of the given length with its places filled. The allowance bounds the number of
its characters. -/
def fillFrom (owner : Option Datum) (length : Nat) : Nat → List Datum → Text → Except Fault Text
  | 0, _, _ => .error .malformed
  | _, values, [] =>
    if values.isEmpty ∨ owner.isSome then .ok []
    else .error (.mismatch "not all arguments converted during string formatting")
  | allowance + 1, values, '%' :: rest => do
    let (values, rest) ← keyed owner values rest
    let (style, rest) := marks {} rest
    let (width, values, rest) ← count values rest
    let style := ofWidth style width
    let (style, values, rest) ← match rest with
      | '.' :: rest => do
        let (places, values, rest) ← count values rest
        pure ({ style with precision := some places.toNat }, values, rest)
      | rest => pure (style, values, rest)
    let rest := if rest.head? = some 'h' ∨ rest.head? = some 'l' ∨ rest.head? = some 'L' then
      rest.drop 1 else rest
    match rest with
    | [] => .error (.unacceptable "incomplete format")
    | '%' :: rest => do
      let others ← fillFrom owner length allowance values rest
      return '%' :: others
    | letter :: rest =>
      match values with
      | [] => .error (.mismatch "not enough arguments for format string")
      | value :: values => do
        let written ← write style letter (length - rest.length - 1) value
        let others ← fillFrom owner length allowance values rest
        return written ++ others
  | allowance + 1, values, c :: rest => do
    let others ← fillFrom owner length allowance values rest
    return c :: others

/-- A pattern filled with the items of a tuple, or with a single value. -/
def fill (pattern : Text) (value : Datum) : Except Fault Text :=
  match value with
  | .series .list _ => fillFrom (some value) pattern.length (pattern.length + 1) [value] pattern
  | .series .stream _ => fillFrom none pattern.length (pattern.length + 1) [value] pattern
  | .series _ items => fillFrom none pattern.length (pattern.length + 1) items pattern
  | .record _ _ => fillFrom (some value) pattern.length (pattern.length + 1) [value] pattern
  | .range _ _ _ => fillFrom (some value) pattern.length (pattern.length + 1) [value] pattern
  | .undefined _ => fillFrom (some value) pattern.length (pattern.length + 1) [value] pattern
  | value => fillFrom none pattern.length (pattern.length + 1) [value] pattern

end Daybook.Template.Pattern
