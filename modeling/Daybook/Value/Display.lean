import Daybook.Text.Display
import Daybook.Value

/-!
# The display form of values

Where a value is not what is asked for, it is shown: what its kind is called, and its display
form, with texts quoted, lists in brackets and records in braces.
-/
namespace Daybook.Value

/-- What the kind of a value is called. -/
def kind : Value → Text
  | .nothing => "NoneType"
  | .truth _ => "bool"
  | .whole _ => "int"
  | .fraction _ => "float"
  | .text _ => "str"
  | .list _ => "list"
  | .record _ => "dict"

mutual

/-- The display form of a value. -/
def display : Value → Text
  | .nothing => "None"
  | .truth value => if value then "True" else "False"
  | .whole value => Text.signedDecimal value
  | .fraction written => written
  | .text value => Text.display value
  | .list items => '[' :: List.intercalate ", " (displayItems items) ++ [']']
  | .record fields => '\x7b' :: List.intercalate ", " (displayFields fields) ++ ['\x7d']

/-- The display forms of the items of a list. -/
def displayItems : List Value → List Text
  | [] => []
  | item :: rest => display item :: displayItems rest

/-- The display forms of the fields of a record. -/
def displayFields : List (Text × Value) → List Text
  | [] => []
  | (name, value) :: rest =>
    (Text.display name ++ ": " ++ display value) :: displayFields rest

end

end Daybook.Value
