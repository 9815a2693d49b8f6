import Daybook.Text

/-!
# Values

Records and settings arrive as untyped values: what a request or a settings file
says before anybody has checked it. A value is nothing, a truth value, a number, a
text, a list of values, or a record of named values.
-/
namespace Daybook

/-- An untyped value. A number that is not written as a whole number keeps its
written form, and the fields of a record keep their order. -/
inductive Value where
  | nothing
  | truth (value : Bool)
  | whole (value : Int)
  | fraction (written : Text)
  | text (value : Text)
  | list (items : List Value)
  | record (fields : List (Text × Value))
  deriving Inhabited

namespace Value

/-- The last field of the given name. -/
def field? (name : Text) (fields : List (Text × Value)) : Option Value :=
  fields.reverse.lookup name

/-- A value that says nothing: nothing, what is false, zero, or an empty text or
collection. -/
def saysNothing : Value → Bool
  | nothing => true
  | truth value => !value
  | whole value => value == 0
  | fraction written =>
    (written.takeWhile fun c => c != 'e' && c != 'E').all fun c => !c.isDigit || c == '0'
  | text value => value.isEmpty
  | list items => items.isEmpty
  | record fields => fields.isEmpty

end Value

end Daybook
