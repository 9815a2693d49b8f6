import Daybook.Text.Quoted
import Daybook.Value

/-!
# Values written out over several lines

Every item of a list and every field of a record stands on a line of its own, two columns
further in than what holds it. An empty list and an empty record stay on one line. Characters
are written as they are wherever a quoted text allows it.
-/
namespace Daybook.Value

/-- A line break and the columns before a line. -/
def breakTo (columns : Nat) : Text :=
  '\n' :: List.replicate columns ' '

mutual

/-- The written form of a value that begins in a line with the given number of columns
before it. -/
def indentedFrom (columns : Nat) : Value → Text
  | .nothing => "null"
  | .truth true => "true"
  | .truth false => "false"
  | .whole value => Text.signedDecimal value
  | .fraction written => written
  | .text value => Text.Quoted.encode value
  | .list [] => "[]"
  | .list (item :: items) =>
    '[' :: breakTo (columns + 2) ++ indentedFrom (columns + 2) item ++
      indentedItems (columns + 2) items ++ breakTo columns ++ [']']
  | .record [] => ['\x7b', '\x7d']
  | .record ((name, value) :: fields) =>
    '\x7b' :: breakTo (columns + 2) ++ Text.Quoted.encode name ++ ": " ++
      indentedFrom (columns + 2) value ++ indentedFields (columns + 2) fields ++
      breakTo columns ++ ['\x7d']

/-- The items of a list after its first one. -/
def indentedItems (columns : Nat) : List Value → Text
  | [] => []
  | item :: items =>
    ',' :: breakTo columns ++ indentedFrom columns item ++ indentedItems columns items

/-- The fields of a record after its first one. -/
def indentedFields (columns : Nat) : List (Text × Value) → Text
  | [] => []
  | (name, value) :: fields =>
    ',' :: breakTo columns ++ Text.Quoted.encode name ++ ": " ++ indentedFrom columns value ++
      indentedFields columns fields

end

/-- A value written out over several lines. -/
def indented (value : Value) : Text :=
  indentedFrom 0 value

end Daybook.Value
