import Daybook.Template.Call

/-!
# Questions about values

A value can be asked whether it is defined, of a certain kind, equal to another value, and so
on. Questions are asked by their names, and some take a further value.
-/
namespace Daybook.Template

/-- A function that is called by a name: what it calls itself in faults, and its parameters. The
first `hidden` ones have their values without being given them, and the first `required` ones
have to have one. -/
structure Signature where
  function : Text
  hidden : Nat
  required : Nat
  parameters : List Text

/-- The values of the parameters of a function. -/
def Signature.fit (signature : Signature) (arguments : Arguments) :
    Except Fault (List (Option Datum)) :=
  arguments.fit signature.function signature.hidden signature.required signature.parameters

namespace Question

/-- The names of the questions that take no further value. -/
def simple : List Text :=
  ["boolean", "callable", "defined", "escaped", "even", "false", "filter", "float", "integer",
    "iterable", "lower", "mapping", "none", "number", "odd", "sequence", "string", "test", "true",
    "undefined", "upper"]

/-- The names of the comparisons. -/
def comparisons : List (Text × Comparison) :=
  [("==", .equal), ("eq", .equal), ("equalto", .equal), ("!=", .different), ("ne", .different),
    ("<", .less), ("lt", .less), ("lessthan", .less), ("<=", .lessOrEqual), ("le", .lessOrEqual),
    (">", .greater), ("gt", .greater), ("greaterthan", .greater), (">=", .greaterOrEqual),
    ("ge", .greaterOrEqual), ("in", .held)]

/-- The comparison with the given name. -/
def comparison? (name : Text) : Option Comparison :=
  (comparisons.find? fun (known, _) => known == name).map (·.2)

/-- The names of the other questions that take a further value. -/
def further : List Text :=
  ["divisibleby", "sameas"]

/-- The names of all questions. -/
def names : List Text :=
  simple ++ comparisons.map (·.1) ++ further

/-- The function behind a question. -/
def signature (name : Text) : Signature :=
  if simple.contains name then ⟨"test_" ++ name, 1, 1, ["value"]⟩
  else if name = "divisibleby" then ⟨"test_divisibleby", 1, 2, ["value", "num"]⟩
  else if name = "in" then ⟨"test_in", 1, 2, ["value", "seq"]⟩
  else ⟨"test_" ++ name, 1, 2, ["value", "other"]⟩

/-- Two values cannot be told apart. -/
def isSame (a b : Datum) : Bool :=
  a.kind = b.kind && Datum.same a b

/-- The value has items that can be run through. -/
def isIterable (value : Datum) : Bool :=
  match value.items? with
  | .ok _ => true
  | .error _ => false

/-- The value has items, and a number of them. -/
def isSequence (value : Datum) : Bool :=
  match value.length with
  | .ok _ => true
  | .error _ => false

/-- The answer to a question that takes no further value. The filters that are known decide
whether a text names one. -/
def answerSimple (filters : List Text) (name : Text) (value : Datum) : Except Fault Bool := do
  let even : Except Fault Datum := Datum.operate .remainder value (.whole 2)
  if name = "defined" then return match value with
    | .undefined _ => false
    | _ => true
  else if name = "undefined" then return match value with
    | .undefined _ => true
    | _ => false
  else if name = "none" then return value.kind = "NoneType"
  else if name = "boolean" then return value.kind = "bool"
  else if name = "true" then return match value with
    | .truth value => value
    | _ => false
  else if name = "false" then return match value with
    | .truth value => !value
    | _ => false
  else if name = "integer" then return value.kind = "int"
  else if name = "float" then return value.kind = "float"
  else if name = "number" then return value.quantity?.isSome
  else if name = "string" then return value.kind = "str"
  else if name = "mapping" then return value.kind = "dict"
  else if name = "sequence" then return isSequence value
  else if name = "iterable" then return isIterable value
  else if name = "callable" then return match value with
    | .undefined _ => true
    | .method _ _ => true
    | .function _ => true
    | _ => false
  else if name = "even" then return Datum.same (← even) (.whole 0)
  else if name = "odd" then return Datum.same (← even) (.whole 1)
  else if name = "lower" then return Datum.isAllIn Text.smallForm Text.largeForm value.print
  else if name = "upper" then return Datum.isAllIn Text.largeForm Text.smallForm value.print
  else if name = "filter" then return filters.contains value.print
  else if name = "test" then return names.contains value.print
  else return false

/-- The answer to a question. -/
def answer (filters : List Text) (name : Text) (value : Datum) (arguments : Arguments) :
    Except Fault Bool := do
  match ← (signature name).fit arguments with
  | [some other] =>
    match comparison? name with
    | some kind => Datum.compareBy kind value other
    | none =>
      if name = "divisibleby" then
        let rest ← Datum.operate .remainder value other
        return Datum.same rest (.whole 0)
      else return isSame value other
  | _ => answerSimple filters name value

end Question

end Daybook.Template
