import Daybook.Text.Quoted
import Daybook.Value

/-!
# Written values

The written form of values is the usual one for data exchange: `null`, `true`,
`false`, numbers, quoted texts, lists in brackets and records in braces, with white
space between the parts. Reading takes the whole text or nothing, and goes no deeper than a fixed
number of lists and records in each other.

A text that is no written value stands for itself without its first and its last
character, the rule by which a quotation is read that is not a proper one.
-/
namespace Daybook.Value

open Text.Quoted (surrounds)

/-- Why a text is not read as a written value. -/
inductive Unwritten where
  /-- It is none. -/
  | malformed
  /-- Too many lists and records lie in each other; the innermost is a record or a list. -/
  | tooDeep (isRecord : Bool)
  deriving DecidableEq, Repr

/-- The reason in words. -/
def Unwritten.message : Unwritten → Text
  | .malformed => "not a value"
  | .tooDeep isRecord =>
    "maximum recursion depth exceeded while decoding a JSON " ++
      (if isRecord then "object" else "array") ++ " from a unicode string"

/-- How many lists and records may lie in each other. -/
def deepest : Nat := 990

/-- The text after its white space. -/
def skip (written : Text) : Text :=
  written.dropWhile surrounds

/-- The length of the digits `0` to `9` at the beginning. -/
def digits (written : Text) : Nat :=
  Text.stretch Char.isDigit written

/-- The length of a decimal fraction, its point included. -/
def fractionLength : Text → Nat
  | '.' :: rest => if digits rest = 0 then 0 else 1 + digits rest
  | _ => 0

/-- The length of an exponent, its letter and sign included. -/
def exponentLength : Text → Nat
  | mark :: rest =>
    if mark = 'e' ∨ mark = 'E' then
      let sign := match rest with
        | '+' :: _ => 1
        | '-' :: _ => 1
        | _ => 0
      let count := digits (rest.drop sign)
      if count = 0 then 0 else 1 + sign + count
    else 0
  | [] => 0

/-- A number and what follows it. Its whole part has no superfluous zero, and a whole number
no more digits than are read. -/
def number? (written : Text) : Option (Value × Text) :=
  let sign := if written.head? = some '-' then 1 else 0
  let unsigned := written.drop sign
  let whole := if unsigned.head? = some '0' then 1 else digits unsigned
  if whole = 0 then none
  else
    let afterWhole := unsigned.drop whole
    let point := fractionLength afterWhole
    let exponent := exponentLength (afterWhole.drop point)
    let after := afterWhole.drop (point + exponent)
    if point + exponent = 0 then
      let magnitude := Nat.ofDigitChars 10 (unsigned.take whole) 0
      if Text.mostDigits < whole then none
      else some (.whole (if sign = 1 then -magnitude else magnitude), after)
    else some (.fraction (written.take (sign + whole + point + exponent)), after)

/-- The items of a list that has just been opened, separated by commas and closed by
`close`. The allowance bounds their number. -/
def items {α : Type} (item : Text → Except Unwritten (α × Text)) (close : Char) :
    Nat → Text → Except Unwritten (List α × Text)
  | 0, _ => .error .malformed
  | allowance + 1, written => do
    let (first, after) ← item (skip written)
    match skip after with
    | ',' :: rest =>
      let (others, after) ← items item close allowance rest
      return (first :: others, after)
    | c :: rest => if c = close then return ([first], rest) else .error .malformed
    | [] => .error .malformed

/-- A list that has just been opened; it may be empty. -/
def series {α : Type} (item : Text → Except Unwritten (α × Text)) (close : Char)
    (written : Text) : Except Unwritten (List α × Text) :=
  if (skip written).head? = some close then .ok ([], (skip written).drop 1)
  else items item close (written.length + 1) written

/-- A named value, as it stands in a record. -/
def named (item : Text → Except Unwritten (Value × Text)) :
    Text → Except Unwritten ((Text × Value) × Text)
  | '"' :: rest =>
    match Text.Quoted.opened? rest with
    | none => .error .malformed
    | some (name, after) =>
      match skip after with
      | ':' :: rest => (item (skip rest)).map fun (value, after) => ((name.shown, value), after)
      | _ => .error .malformed
  | _ => .error .malformed

/-- What can be read, or the text is none. -/
def readable {α : Type} : Option α → Except Unwritten α
  | some value => .ok value
  | none => .error .malformed

/-- A value at the beginning of a text and what follows it, with room for so many lists and
records in each other. -/
def leading : Nat → Text → Except Unwritten (Value × Text)
  | room, written =>
    match written with
    | '"' :: rest =>
      readable ((Text.Quoted.opened? rest).map fun (inner, after) => (.text inner.shown, after))
    | '[' :: rest =>
      match room with
      | 0 => .error (.tooDeep false)
      | room + 1 =>
        (series (leading room) ']' rest).map fun (items, after) => (.list items, after)
    | '\x7b' :: rest =>
      match room with
      | 0 => .error (.tooDeep true)
      | room + 1 =>
        (series (named (leading room)) '\x7d' rest).map fun (fields, after) =>
          (.record fields, after)
    | 'n' :: 'u' :: 'l' :: 'l' :: rest => .ok (.nothing, rest)
    | 't' :: 'r' :: 'u' :: 'e' :: rest => .ok (.truth true, rest)
    | 'f' :: 'a' :: 'l' :: 's' :: 'e' :: rest => .ok (.truth false, rest)
    | other => readable (number? other)

/-- The value that a whole text writes. -/
def ofWritten (written : Text) : Except Unwritten Value := do
  let (value, after) ← leading deepest (skip written)
  if after.all surrounds then return value else .error .malformed

/-- The value of a quotation, proper or not. -/
def ofQuotation (written : Text) : Except Unwritten Value :=
  match ofWritten written with
  | .error .malformed => .ok (.text (Text.Quoted.bare written))
  | other => other

end Daybook.Value
