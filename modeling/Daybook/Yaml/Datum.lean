import Daybook.Text.Display
import Daybook.Yaml.Tag

/-!
# The data of a settings file

A settings file holds data: nothing, truth values, numbers, texts, byte strings, moments, and
collections of data. A collection may stand in several places and may even hold itself, so the
collections are numbered, and a datum refers to a collection by its number.

Data that are not of the kind that is asked for are shown in their display form. A collection
within itself is shown as an ellipsis, and a number with more digits than are read has no
display form.
-/
namespace Daybook.Yaml

/-- A datum. -/
inductive Datum where
  | nothing
  | truth (value : Bool)
  | whole (value : Int)
  | fraction (value : Fraction)
  | bytes (value : Bytes)
  | moment (value : Moment)
  | text (value : Text)
  | collection (number : Nat)
  deriving DecidableEq

/-- A collection of data. -/
inductive Collection where
  | list (items : List Datum)
  /-- A list of pairs. -/
  | pairs (items : List (Datum × Datum))
  | set (items : List Datum)
  | mapping (fields : List (Datum × Datum))

/-- The data of a settings file: the outermost datum, and the collections. -/
structure Data where
  collections : Array Collection
  root : Datum

namespace Datum

/-- The whole number that a datum is equal to. -/
def number? : Datum → Option Int
  | truth value => some (if value then 1 else 0)
  | whole value => some value
  | fraction value => value.toInt?
  | _ => none

/-- Two data are the same key of a mapping. Numbers and truth values are compared by the
numbers that they are. -/
def same : Datum → Datum → Bool
  | fraction a, fraction b => a.same b
  | a, b =>
    match a.number?, b.number? with
    | some a, some b => a == b
    | _, _ => a == b

/-- A datum may be a key. -/
def isKey : Datum → Bool
  | collection _ => false
  | _ => true

end Datum

namespace Collection

/-- The fields of a mapping with one more. A key that is there already keeps its place. -/
def insert (key value : Datum) : List (Datum × Datum) → List (Datum × Datum)
  | [] => [(key, value)]
  | (held, old) :: rest =>
    if held.same key then (held, value) :: rest else (held, old) :: insert key value rest

/-- A collection holds nothing. -/
def isEmpty : Collection → Bool
  | list items => items.isEmpty
  | pairs items => items.isEmpty
  | set items => items.isEmpty
  | mapping fields => fields.isEmpty

/-- What a collection is called. -/
def kind : Collection → Text
  | list _ => "list"
  | pairs _ => "list"
  | set _ => "set"
  | mapping _ => "dict"

end Collection

namespace Data

/-- The collection of a number. -/
def collection (data : Data) (number : Nat) : Collection :=
  data.collections.getD number (.list [])

/-- What a datum is called. -/
def kind (data : Data) : Datum → Text
  | .nothing => "NoneType"
  | .truth _ => "bool"
  | .whole _ => "int"
  | .fraction _ => "float"
  | .bytes _ => "bytes"
  | .moment value => if value.time.isSome then "datetime" else "date"
  | .text _ => "str"
  | .collection number => (data.collection number).kind

/-- Display forms between commas, if all of them are there. -/
def listed (start close : Text) (parts : List (Option Text)) : Option Text :=
  (parts.mapM id).map fun parts => start ++ List.intercalate ", " parts ++ close

/-- The display form of a datum within the collections `around`. The allowance bounds the depth
of collections. -/
def displayWithin (data : Data) : Nat → List Nat → Datum → Option Text
  | _, _, .nothing => some "None"
  | _, _, .truth value => some (if value then "True" else "False")
  | _, _, .whole value =>
    let written := Text.signedDecimal value
    if Text.mostDigits < (Text.decimal value.natAbs).length then none else some written
  | _, _, .fraction value => some value.display
  | _, _, .bytes value => some (Text.displayBytes value)
  | _, _, .moment value => some value.display
  | _, _, .text value => some (Text.display value)
  | 0, _, .collection _ => some "..."
  | allowance + 1, around, .collection number =>
    let within := data.displayWithin allowance (number :: around)
    let isAround := around.contains number
    match data.collection number with
    | .list items => if isAround then some "[...]" else listed "[" "]" (items.map within)
    | .pairs items =>
      if isAround then some "[...]"
      else listed "[" "]" (items.map fun (key, value) => listed "(" ")" [within key, within value])
    | .set [] => some "set()"
    | .set items => listed "\x7b" "\x7d" (items.map within)
    | .mapping fields =>
      if isAround then some "\x7b...\x7d"
      else listed "\x7b" "\x7d" (fields.map fun (key, value) => do
        let key ← within key
        let value ← within value
        return key ++ ": " ++ value)

/-- The display form of a datum. -/
def display (data : Data) (datum : Datum) : Text :=
  (data.displayWithin (data.collections.size + 1) [] datum).getD
    ("<unprintable " ++ data.kind datum ++ " object>")

/-- A datum that says nothing: nothing, what is false, zero, or something empty. -/
def saysNothing (data : Data) : Datum → Bool
  | .nothing => true
  | .truth value => !value
  | .whole value => value == 0
  | .fraction value => value.isZero
  | .bytes value => value.isEmpty
  | .moment _ => false
  | .text value => value.isEmpty
  | .collection number => (data.collection number).isEmpty

end Data

end Daybook.Yaml
