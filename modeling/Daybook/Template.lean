import Daybook.Fraction

/-!
# Templates

The name of the file that a date belongs to is made by a template: literal text with outputs
and tags in it. An output writes the values of its terms. Tags choose between parts of the
template, repeat a part for every item of a series, and give names to values; a name that is
given inside a part that is repeated, or set apart, is forgotten after it. The only value that a
template is given is the date.

A term is made of constants, names and brackets, and of whatever is done with values: their
members and entries are taken, they are calculated with, compared, called, filtered and tested.

Only what serves to make a name of a date is there. A template has no parts that can be called, none
that come from other templates, no escaping and no chance, and asking for a filter, a method or a
calculation that is not listed in these modules is refused.
-/
namespace Daybook.Template

/-- Operations on two numbers, some of which can be done with other values as well. -/
inductive Operation where
  | add
  | subtract
  | multiply
  | divide
  | floorDivide
  | remainder
  | power
  deriving DecidableEq, Repr

/-- Comparisons of two values. -/
inductive Comparison where
  | equal
  | different
  | less
  | lessOrEqual
  | greater
  | greaterOrEqual
  /-- The first is held by the second. -/
  | held
  | notHeld
  deriving DecidableEq, Repr

/-- What stands in an output or a tag. Where arguments have names, these belong to the last
ones. -/
inductive Term where
  | nothing
  | truth (value : Bool)
  | whole (value : Nat)
  | fraction (value : Fraction)
  | text (value : Text)
  /-- What is left out where something could stand. -/
  | absent
  /-- The text of the part of the template that the term is about. -/
  | part
  | variable (name : Text)
  | member (owner : Term) (name : Text)
  | entry (owner key : Term)
  | portion (owner start stop step : Term)
  | call (function : Term) (arguments : List Term) (names : List Text)
  | signed (negative : Bool) (operand : Term)
  | negation (operand : Term)
  | operation (kind : Operation) (left right : Term)
  | both (left right : Term)
  | either (left right : Term)
  | join (parts : List Term)
  | comparison (first : Term) (kinds : List Comparison) (others : List Term)
  | tuple (items : List Term)
  | list (items : List Term)
  | record (keys values : List Term)
  | filter (name : Text) (operand : Term) (arguments : List Term) (names : List Text)
  | test (name : Text) (operand : Term) (arguments : List Term) (names : List Text)
  | choice (condition accepted rejected : Term)

/-- What is given a value: one name, or several names that share the items of a series. -/
inductive Target where
  | one (name : Text)
  | several (names : List Text)
  deriving DecidableEq, Repr

/-- A part of a template. -/
inductive Piece where
  | literal (text : Text)
  | output (terms : List Term)
  | branch (condition : Term) (accepted rejected : List Piece)
  /-- The body is repeated for every item that satisfies the condition; without such an item
  the other part takes its place. -/
  | loop (target : Target) (items condition : Term) (body otherwise : List Piece)
  | assignment (target : Target) (value : Term)
  /-- The value may refer to the text of the body. -/
  | capture (target : Target) (value : Term) (body : List Piece)
  | scope (targets : List Target) (values : List Term) (body : List Piece)
  /-- A part that the value is written in place of. -/
  | filtered (value : Term) (body : List Piece)
  /-- A reference to another template. -/
  | reference (name : Term)

/-- Why a template yields no text. -/
inductive Fault where
  /-- It is not written as a template has to be. -/
  | malformed
  /-- It names a filter or a test that there is not. -/
  | unknownName
  /-- A filter or a test that there is not is asked for under a condition. -/
  | unknownNameInUse
  /-- Something is asked of a value that is not defined. -/
  | undefinedValue
  /-- Something is asked of a value that templates have no access to. -/
  | forbidden
  /-- A filter cannot work on what it is given. -/
  | unsuitable
  /-- A value is asked for what values of its kind cannot do. -/
  | mismatch (message : Text)
  /-- A value is of the right kind and not acceptable. -/
  | unacceptable (message : Text)
  | divisionByZero (message : Text)
  | overflow (message : Text)
  | noSuchMember (message : Text)
  | noSuchKey (message : Text)
  | noSuchPosition (message : Text)
  deriving DecidableEq, Repr

end Daybook.Template
