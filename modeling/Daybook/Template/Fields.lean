import Daybook.Date.Pattern
import Daybook.Template.Member
import Daybook.Template.Pattern

/-!
# Texts with fields

A text may have fields between braces that values are written into. A field begins with the
position or the name of its value, which members and entries may follow; after an exclamation
mark it says that the display form is written, and after a colon in which style. Fields without
a position take the values in turn. A double brace stands for a single one. What comes after the
colon may have fields of its own.
-/
namespace Daybook.Template.Fields

/-- The values that fields are filled with. -/
structure Filling where
  values : List Datum
  names : List Text
  /-- The values of the names. -/
  named : List Datum

/-- How fields without a position are numbered: by the number of them so far, or not at all
where a field has a position. -/
inductive Numbering where
  | open
  | counted (next : Nat)
  | manual
  deriving DecidableEq

/-! ## Styles -/

/-- The mark of a place in a field. -/
def place? : Char → Option Place
  | '<' => some .left
  | '>' => some .right
  | '^' => some .centre
  | '=' => some .apart
  | _ => none

/-- A style as it is written, with the letter that says what kind of value is written. -/
structure Spec where
  style : Style := {}
  isPlaced : Bool := false
  letter : Option Char := none

/-- What a text begins with, if it begins with the given character, and the rest. -/
def takes (c : Char) : Text → Bool × Text
  | first :: rest => if first = c then (true, rest) else (false, first :: rest)
  | [] => (false, [])

/-- Digits that are written by the letter can have the separator between groups of them. -/
def separates (separator letter : Char) : Bool :=
  "defgEG%F".toList.contains letter || (separator == '_' && "boxX".toList.contains letter)

/-- The style, unless it has something between digits that are not written in groups. The letter
that values of the kind have if there is none is `usual`. -/
def Spec.checked (usual : Char) (spec : Spec) : Except Fault Spec :=
  let letter := spec.letter.getD usual
  match spec.style.between with
  | none => .ok spec
  | some separator =>
    if separates separator letter then .ok spec
    else .error (.unacceptable ("Cannot specify '" ++ [separator] ++ "' with '" ++ [letter] ++
      "'."))

/-- The style that a text writes for values of a kind with the given usual letter. -/
def Spec.ofText (usual : Char) (text : Text) : Except Fault Spec :=
  let (fill, place, rest) : Option Char × Option Place × Text := match text with
    | c :: mark :: rest =>
      match place? mark with
      | some place => (some c, some place, rest)
      | none =>
        match place? c with
        | some place => (none, some place, mark :: rest)
        | none => (none, none, text)
    | [mark] => (none, place? mark, if (place? mark).isSome then [] else text)
    | [] => (none, none, text)
  let (sign, rest) : Text × Text := match rest with
    | '+' :: rest => (['+'], rest)
    | '-' :: rest => (['-'], rest)
    | ' ' :: rest => ([' '], rest)
    | rest => ([], rest)
  let (marked, rest) := takes '#' rest
  let (zeros, rest) := if fill.isSome then (false, rest) else takes '0' rest
  let digits := rest.takeWhile Char.isDigit
  let rest := rest.drop digits.length
  let (between, rest) : Option Char × Text := match rest with
    | ',' :: rest => (some ',', rest)
    | '_' :: rest => (some '_', rest)
    | rest => (none, rest)
  let (pointed, rest) := takes '.' rest
  let places := if pointed then rest.takeWhile Char.isDigit else []
  if pointed ∧ places = [] then .error (.unacceptable "Format specifier missing precision")
  else
    let style : Style := {
      fill := fill.getD (if zeros then '0' else ' ')
      place := place.getD (if zeros then .apart else .right)
      sign, marked
      width := Nat.ofDigitChars 10 digits 0
      between
      precision := if pointed then some (Nat.ofDigitChars 10 places 0) else none }
    match rest.drop places.length with
    | [] => Spec.checked usual { style, isPlaced := place.isSome, letter := none }
    | [c] => Spec.checked usual { style, isPlaced := place.isSome, letter := some c }
    | _ => .error (.unacceptable "Invalid format specifier")

/-- The fault of a letter that values of a kind are not written with. -/
def unknownLetter (letter : Char) (kind : Text) : Fault :=
  .unacceptable ("Unknown format code '" ++ [letter] ++ "' for object of type '" ++ kind ++ "'")

/-- The sign that stands before numbers that are not below zero. -/
def withSign (style : Style) : Style :=
  if style.sign = ['-'] then { style with sign := [] } else style

/-- A text in the style that is written. -/
def ofText (spec : Spec) (value : Text) : Except Fault Text :=
  let style := spec.style
  match spec.letter with
  | none | some 's' =>
    if style.sign = [' '] then
      .error (.unacceptable "Space not allowed in string format specifier")
    else if style.sign ≠ [] then
      .error (.unacceptable "Sign not allowed in string format specifier")
    else if style.marked then
      .error (.unacceptable "Alternate form (#) not allowed in string format specifier")
    else if spec.isPlaced ∧ style.place = .apart then
      .error (.unacceptable "'=' alignment not allowed in string format specifier")
    else
      let place := if spec.isPlaced then style.place else .left
      .ok ({ style with place }.text value)
  | some letter => .error (unknownLetter letter "str")

/-- A number with a point in the style that is written. -/
def ofFraction (spec : Spec) (value : Fraction) : Except Fault Text :=
  let style := withSign spec.style
  match spec.letter with
  | none =>
    match style.precision with
    | none => .ok (style.field (style.signFor value.isNegative)
        (if value.isNegative then value.negate.display else value.display))
    | some _ => .ok (style.fraction ' ' value)
  | some letter =>
    if "eEfFgG%n".toList.contains letter then
      .ok (style.fraction (if letter = 'n' then 'g' else letter) value)
    else .error (unknownLetter letter "float")

/-- A whole number, or a truth value that counts as one, in the style that is written. -/
def ofWhole (kind : Text) (spec : Spec) (value : Int) : Except Fault Text :=
  let style := withSign spec.style
  let letter := spec.letter.getD 'd'
  if "eEfFgG%".toList.contains letter then do
    let value ← Datum.Quantity.toFraction (.whole value)
    ofFraction spec value
  else if !("bcdoxXn".toList.contains letter) then .error (unknownLetter letter kind)
  else if style.precision.isSome then
    .error (.unacceptable "Precision not allowed in integer format specifier")
  else if letter = 'c' then
    if spec.style.sign ≠ [] then
      .error (.unacceptable "Sign not allowed with integer format specifier 'c'")
    else if style.marked then
      .error (.unacceptable "Alternate form (#) not allowed with integer format specifier 'c'")
    else (Pattern.character (.whole value)).map fun c =>
      let place := if spec.isPlaced then style.place else .left
      { style with place }.text [c]
  else .ok (style.whole letter value)

/-- A value in the style that a text writes. Without a style it is written as it prints. -/
def write (value : Datum) (written : Text) : Except Fault Text :=
  match value with
  | .date day => .ok (if written = [] then day.iso else day.writeBy written)
  | value =>
    if written = [] then .ok value.print
    else match value with
      | .text value => do
        let spec ← Spec.ofText 's' written
        ofText spec value
      | value =>
        match value.quantity? with
        | some (.whole n) => do
          let spec ← Spec.ofText 'd' written
          ofWhole value.kind spec n
        | some (.fraction x) => do
          let spec ← Spec.ofText 'g' written
          ofFraction spec x
        | none =>
          .error (.mismatch ("unsupported format string passed to " ++ value.kind ++
            ".__format__"))

/-! ## Fields -/

/-- The inside of a field up to the brace that closes it, and what follows the brace. -/
def inside (depth : Nat) : Text → Option (Text × Text)
  | [] => none
  | '\x7d' :: rest =>
    match depth with
    | 0 => some ([], rest)
    | depth + 1 => (inside depth rest).map fun (inner, after) => ('\x7d' :: inner, after)
  | '\x7b' :: rest => (inside (depth + 1) rest).map fun (inner, after) => ('\x7b' :: inner, after)
  | c :: rest => (inside depth rest).map fun (inner, after) => (c :: inner, after)

/-- The members and entries behind the first part of the name of a field. The allowance bounds
the number of its characters. -/
def follow : Nat → Datum → Text → Except Fault Datum
  | 0, _, _ => .error .malformed
  | _, value, [] => .ok value
  | allowance + 1, value, '.' :: rest =>
    let name := rest.takeWhile fun c => c ≠ '.' && c ≠ '['
    if name = [] then .error (.unacceptable "Empty attribute in format string")
    else do
      let inner ← value.member name
      follow allowance inner (rest.drop name.length)
  | allowance + 1, value, '[' :: rest =>
    match Text.cutAt ']' rest with
    | none => .error (.unacceptable "Missing ']' in format string")
    | some (key, after) =>
      if key = [] then .error (.unacceptable "Empty attribute in format string")
      else do
        let key : Datum := if key.all Char.isDigit then .whole (Nat.ofDigitChars 10 key 0)
          else .text key
        let inner ← value.entry key
        follow allowance inner after
  | _, _, _ =>
    .error (.unacceptable "Only '.' or '[' may follow ']' in format field specifier")

/-- The value of a field with the given name, and how the fields after it are numbered. -/
def valueOf (filling : Filling) (numbering : Numbering) (name : Text) :
    Except Fault (Datum × Numbering) :=
  let first := name.takeWhile fun c => c ≠ '.' && c ≠ '['
  let others := name.drop first.length
  let at' (position : Nat) (numbering : Numbering) : Except Fault (Datum × Numbering) :=
    match filling.values[position]? with
    | some value => (follow (others.length + 1) value others).map fun value => (value, numbering)
    | none => .error (.noSuchPosition "tuple index out of range")
  let mixed : Fault := .unacceptable
    "cannot switch from manual field specification to automatic field numbering"
  if name = [] then
    match numbering with
    | .open => at' 0 (.counted 1)
    | .counted next => at' next (.counted (next + 1))
    | .manual => .error mixed
  else if first ≠ [] ∧ first.all Char.isDigit then
    match numbering with
    | .counted _ => .error mixed
    | _ => at' (Nat.ofDigitChars 10 first 0) .manual
  else
    match Datum.namedItem? filling.names filling.named first with
    | some value => (follow (others.length + 1) value others).map fun value => (value, numbering)
    | none => .error (.noSuchKey (Text.display first))

/-- A value in the form that the letter after an exclamation mark asks for. -/
def converted (value : Datum) : Char → Except Fault Datum
  | 's' => .ok (.text value.print)
  | 'r' => .ok (.text value.display)
  | 'a' => .ok (.text (Pattern.basic value.display))
  | c => .error (.unacceptable ("Unknown conversion specifier " ++ [c]))

/-- The parts of the inside of a field: its name, the letter after an exclamation mark, and
the style. -/
def parts (inner : Text) : Except Fault (Text × Option Char × Text) :=
  let name := inner.takeWhile fun c => c ≠ '!' && c ≠ ':'
  match inner.drop name.length with
  | '!' :: letter :: ':' :: style => .ok (name, some letter, style)
  | ['!', letter] => .ok (name, some letter, [])
  | '!' :: _ :: _ => .error (.unacceptable "expected ':' after conversion specifier")
  | '!' :: [] => .error (.unacceptable "unmatched '\x7b' in format spec")
  | _ :: style => .ok (name, none, style)
  | [] => .ok (name, none, [])

/-- A text with its fields filled, and how further fields are numbered. The depth says how many
fields may lie inside of each other, and the allowance bounds the number of characters. -/
def fillFrom (filling : Filling) : Nat → Nat → Numbering → Text →
    Except Fault (Text × Numbering)
  | _, 0, _, _ => .error .malformed
  | 0, _, _, _ => .error (.unacceptable "Max string recursion exceeded")
  | _, _, numbering, [] => .ok ([], numbering)
  | depth + 1, allowance + 1, numbering, '\x7b' :: '\x7b' :: rest => do
    let (others, numbering) ← fillFrom filling (depth + 1) allowance numbering rest
    return ('\x7b' :: others, numbering)
  | depth + 1, allowance + 1, numbering, '\x7d' :: '\x7d' :: rest => do
    let (others, numbering) ← fillFrom filling (depth + 1) allowance numbering rest
    return ('\x7d' :: others, numbering)
  | _, _, _, '\x7d' :: _ =>
    .error (.unacceptable "Single '\x7d' encountered in format string")
  | _, _, _, ['\x7b'] => .error (.unacceptable "Single '\x7b' encountered in format string")
  | depth + 1, allowance + 1, numbering, '\x7b' :: rest =>
    match inside 0 rest with
    | none =>
      if ':' ∈ rest then .error (.unacceptable "unmatched '\x7b' in format spec")
      else .error (.unacceptable "expected '\x7d' before end of string")
    | some (inner, after) => do
      let (name, letter, style) ← parts inner
      let (value, numbering) ← valueOf filling numbering name
      let value ← match letter with
        | some letter => converted value letter
        | none => pure value
      let (style, numbering) ← fillFrom filling depth allowance numbering style
      let written ← write value style
      let (others, numbering) ← fillFrom filling (depth + 1) allowance numbering after
      return (written ++ others, numbering)
  | depth + 1, allowance + 1, numbering, c :: rest => do
    let (others, numbering) ← fillFrom filling (depth + 1) allowance numbering rest
    return (c :: others, numbering)

/-- A text with its fields filled. -/
def fill (text : Text) (filling : Filling) : Except Fault Text :=
  (fillFrom filling 3 (text.length + 1) .open text).map (·.1)

end Daybook.Template.Fields
