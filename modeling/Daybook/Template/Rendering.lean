import Daybook.Template.Filter
import Daybook.Template.Reading

/-!
# Rendering templates

Rendering evaluates the terms of a template for a date, from left to right, and stops at the
first fault. What is written where a condition does not hold is not evaluated; but the names of
all filters and questions outside of branches are looked at before anything is evaluated.

The values of names are kept in a scope. What a loop, or another part that is set apart, adds to
the scope is forgotten after it.
-/
namespace Daybook.Template

/-- The values of names, the latest first. The text of the part that a term is about has the
empty name. -/
abbrev Scope := List (Text × Datum)

namespace Scope

/-- The value of a name. -/
def value (scope : Scope) (name : Text) : Datum :=
  match scope with
  | [] => .undefined false
  | (known, value) :: rest => if known = name then value else Scope.value rest name

/-- The scope in which a name has a value. -/
def give (scope : Scope) (name : Text) (value : Datum) : Scope :=
  (name, value) :: scope

/-- The scope in which names share the items of a value. -/
def share (scope : Scope) (names : List Text) (value : Datum) : Except Fault Scope := do
  let items ← match value.items? with
    | .ok items => pure items
    | .error (.mismatch _) =>
      throw (.mismatch ("cannot unpack non-iterable " ++ value.kind ++ " object"))
    | .error fault => throw fault
  if items.length < names.length then
    throw (.unacceptable ("not enough values to unpack (expected " ++ Text.decimal names.length ++
      ", got " ++ Text.decimal items.length ++ ")"))
  if names.length < items.length then
    throw (.unacceptable ("too many values to unpack (expected " ++ Text.decimal names.length ++
      ")"))
  return (names.zip items).reverse ++ scope

/-- The scope in which a target has a value. -/
def assign (scope : Scope) (target : Target) (value : Datum) : Except Fault Scope :=
  match target with
  | .one name => .ok (scope.give name value)
  | .several names => scope.share names value

/-- What is known before a template begins. -/
def initial (day : Date) : Scope :=
  ("date".toList, .date day) :: Datum.functions.map fun name => (name, .function name)

/-- The value that was given to a name last is its value. -/
theorem value_give (scope : Scope) (name : Text) (value : Datum) :
    (scope.give name value).value name = value := by
  simp [give, Scope.value]

/-- Giving a value to a name does not change the values of other names. -/
theorem value_give_of_ne (scope : Scope) {name other : Text} (value : Datum)
    (different : name ≠ other) : (scope.give name value).value other = scope.value other := by
  simp [give, Scope.value, different]

end Scope

/-! ## Terms -/

/-- The values of a call of which the last ones have the given names. -/
def Arguments.ofValues (values : List Datum) (names : List Text) : Arguments :=
  let count := values.length - names.length
  ⟨values.take count, names, values.drop count⟩

/-- The value of an operation. The remainder of a text is the text as a pattern. -/
def Datum.calculate (kind : Operation) (a b : Datum) : Except Fault Datum :=
  match kind, a with
  | .remainder, .text pattern => (Pattern.fill pattern b).map Datum.text
  | kind, a => Datum.operate kind a b

mutual

/-- The value of a term in a scope. -/
def Term.evaluate (scope : Scope) : Term → Except Fault Datum
  | .nothing => .ok .nothing
  | .truth value => .ok (.truth value)
  | .whole value => .ok (.whole value)
  | .fraction value => .ok (.fraction value)
  | .text value => .ok (.text value)
  | .absent => .ok (.undefined false)
  | .part => .ok (scope.value [])
  | .variable name => .ok (scope.value name)
  | .member owner name => do
    let owner ← owner.evaluate scope
    owner.member name
  | .entry owner key => do
    let owner ← owner.evaluate scope
    let key ← key.evaluate scope
    owner.entry key
  | .portion owner start stop step => do
    let owner ← owner.evaluate scope
    let start ← start.evaluate scope
    let stop ← stop.evaluate scope
    let step ← step.evaluate scope
    owner.portion start stop step
  | .call function arguments names => do
    let function ← function.evaluate scope
    let values ← Term.evaluateAll scope arguments
    function.call (Arguments.ofValues values names)
  | .signed negative operand => do
    let value ← operand.evaluate scope
    Datum.signed negative value
  | .negation operand => do
    let value ← operand.evaluate scope
    return .truth !value.holds
  | .operation kind left right => do
    let a ← left.evaluate scope
    let b ← right.evaluate scope
    Datum.calculate kind a b
  | .both left right => do
    let a ← left.evaluate scope
    if a.holds then right.evaluate scope else return a
  | .either left right => do
    let a ← left.evaluate scope
    if a.holds then return a else right.evaluate scope
  | .join parts => do
    let values ← Term.evaluateAll scope parts
    return .text (values.flatMap Datum.print)
  | .comparison first kinds others => do
    let value ← first.evaluate scope
    let result ← Term.compareAll scope others value kinds
    return .truth result
  | .tuple items => do
    let items ← Term.evaluateAll scope items
    return .series .tuple items
  | .list items => do
    let items ← Term.evaluateAll scope items
    return .series .list items
  | .record keys values => do
    let keys ← Term.evaluateAll scope keys
    let values ← Term.evaluateAll scope values
    return Datum.withEntries [] [] (keys.zip values)
  | .filter name operand arguments names => do
    let value ← operand.evaluate scope
    let values ← Term.evaluateAll scope arguments
    if Filter.names.contains name then Filter.apply name value (Arguments.ofValues values names)
    else throw .unknownNameInUse
  | .test name operand arguments names => do
    let value ← operand.evaluate scope
    let values ← Term.evaluateAll scope arguments
    if Question.names.contains name then
      let answer ← Question.answer Filter.names name value (Arguments.ofValues values names)
      return .truth answer
    else throw .unknownNameInUse
  | .choice condition accepted rejected => do
    let condition ← condition.evaluate scope
    if condition.holds then accepted.evaluate scope else rejected.evaluate scope

/-- The values of terms in a scope. -/
def Term.evaluateAll (scope : Scope) : List Term → Except Fault (List Datum)
  | [] => .ok []
  | term :: rest => do
    let value ← term.evaluate scope
    let values ← Term.evaluateAll scope rest
    return value :: values

/-- Every value compares with the next one as it should. What follows a comparison that fails
is not evaluated. -/
def Term.compareAll (scope : Scope) : List Term → Datum → List Comparison → Except Fault Bool
  | term :: rest, left, kind :: kinds => do
    let right ← term.evaluate scope
    let holds ← Datum.compareBy kind left right
    if holds then Term.compareAll scope rest right kinds else return false
  | _, _, _ => .ok true

end

/-! ## Names -/

mutual

/-- The filters and questions of a term exist, if it is strict. A choice is not. -/
def Term.isKnown (strict : Bool) : Term → Bool
  | .member owner _ => owner.isKnown strict
  | .entry owner key => owner.isKnown strict && key.isKnown strict
  | .portion owner start stop step =>
    owner.isKnown strict && start.isKnown strict && stop.isKnown strict && step.isKnown strict
  | .call function arguments _ => function.isKnown strict && Term.areKnown strict arguments
  | .signed _ operand => operand.isKnown strict
  | .negation operand => operand.isKnown strict
  | .operation _ left right => left.isKnown strict && right.isKnown strict
  | .both left right => left.isKnown strict && right.isKnown strict
  | .either left right => left.isKnown strict && right.isKnown strict
  | .join parts => Term.areKnown strict parts
  | .comparison first _ others => first.isKnown strict && Term.areKnown strict others
  | .tuple items => Term.areKnown strict items
  | .list items => Term.areKnown strict items
  | .record keys values => Term.areKnown strict keys && Term.areKnown strict values
  | .filter name operand arguments _ =>
    (!strict || Filter.names.contains name) && operand.isKnown strict && Term.areKnown strict arguments
  | .test name operand arguments _ =>
    (!strict || Question.names.contains name) && operand.isKnown strict &&
      Term.areKnown strict arguments
  | .choice condition accepted rejected =>
    condition.isKnown false && accepted.isKnown false && rejected.isKnown false
  | _ => true

/-- The filters and questions of terms exist, if they are strict. -/
def Term.areKnown (strict : Bool) : List Term → Bool
  | [] => true
  | term :: rest => term.isKnown strict && Term.areKnown strict rest

end

mutual

/-- The filters and questions of a piece exist, if it is strict. A branch is not; a part that is
set apart is strict by itself. -/
def Piece.isKnown (strict : Bool) : Piece → Bool
  | .literal _ => true
  | .output terms => Term.areKnown strict terms
  | .branch condition accepted rejected =>
    condition.isKnown false && Piece.areKnown false accepted && Piece.areKnown false rejected
  | .loop _ items condition body otherwise =>
    items.isKnown strict && condition.isKnown true && Piece.areKnown true body &&
      Piece.areKnown true otherwise
  | .assignment _ value => value.isKnown strict
  | .capture _ value body => value.isKnown true && Piece.areKnown true body
  | .scope _ values body => Term.areKnown strict values && Piece.areKnown true body
  | .filtered value body => value.isKnown true && Piece.areKnown true body
  | .reference name => name.isKnown strict

/-- The filters and questions of pieces exist, if they are strict. -/
def Piece.areKnown (strict : Bool) : List Piece → Bool
  | [] => true
  | piece :: rest => piece.isKnown strict && Piece.areKnown strict rest

end

/-! ## Pieces -/

/-- A value as it is written in the text. -/
def Datum.written (value : Datum) : Except Fault Text :=
  match value with
  | .whole n => if Nat.pow 10 Text.mostDigits ≤ n.natAbs then .error tooLarge else .ok value.print
  | value => .ok value.print

/-- What is known about a round of a loop: where it stands among all rounds, and its
neighbours. -/
def roundOf (items : List Datum) (position : Nat) : Datum :=
  let count := items.length
  let neighbour (position : Nat) : Datum := items[position]?.getD (.undefined false)
  Datum.withEntries [] []
    [(.text "index", .whole (position + 1)), (.text "index0", .whole position),
      (.text "revindex", .whole (count - position)),
      (.text "revindex0", .whole (count - position - 1)),
      (.text "first", .truth (position == 0)), (.text "last", .truth (position + 1 == count)),
      (.text "length", .whole count), (.text "depth", .whole 1), (.text "depth0", .whole 0),
      (.text "previtem", if position = 0 then .undefined false else neighbour (position - 1)),
      (.text "nextitem", neighbour (position + 1)),
      (.text "cycle", .method (.whole position) "cycle")]

/-- The items of a loop for which its condition holds. -/
def accepted (scope : Scope) (target : Target) (condition : Term) (items : List Datum) :
    Except Fault (List Datum) :=
  items.filterM fun item => do
    let scope ← scope.assign target item
    let value ← condition.evaluate scope
    return value.holds

/-- The scope in which targets have the values of terms. -/
def assignAll (scope : Scope) : List Target → List Datum → Except Fault Scope
  | target :: targets, value :: values => do
    let scope ← scope.assign target value
    assignAll scope targets values
  | _, _ => .ok scope

mutual

/-- The text of a piece in a scope, and the scope after it. -/
def Piece.render (scope : Scope) : Piece → Except Fault (Text × Scope)
  | .literal text => .ok (text, scope)
  | .output terms => do
    let values ← Term.evaluateAll scope terms
    let texts ← values.mapM Datum.written
    return (texts.flatten, scope)
  | .branch condition accepted rejected => do
    let value ← condition.evaluate scope
    if value.holds then Piece.renderAll scope accepted else Piece.renderAll scope rejected
  | .loop target items condition body otherwise => do
    let value ← items.evaluate scope
    let all ← value.items?
    let items ← accepted scope target condition all
    if items.isEmpty then
      let (text, _) ← Piece.renderAll scope otherwise
      return (text, scope)
    else
      let texts ← (items.zipIdx).mapM fun (item, position) => do
        let inner ← scope.assign target item
        let (text, _) ← Piece.renderAll (inner.give "loop" (roundOf items position)) body
        return text
      return (texts.flatten, scope)
  | .assignment target value => do
    let value ← value.evaluate scope
    let scope ← scope.assign target value
    return ([], scope)
  | .capture target value body => do
    let (text, _) ← Piece.renderAll scope body
    let value ← value.evaluate (scope.give [] (.text text))
    let scope ← scope.assign target value
    return ([], scope)
  | .scope targets values body => do
    let values ← Term.evaluateAll scope values
    let inner ← assignAll scope targets values
    let (text, _) ← Piece.renderAll inner body
    return (text, scope)
  | .filtered value body => do
    let (text, _) ← Piece.renderAll scope body
    let value ← value.evaluate (scope.give [] (.text text))
    let text ← value.written
    return (text, scope)
  | .reference name => do
    let _ ← name.evaluate scope
    throw (.mismatch "no loader for this environment specified")

/-- The text of pieces in a scope, and the scope after them. -/
def Piece.renderAll (scope : Scope) : List Piece → Except Fault (Text × Scope)
  | [] => .ok ([], scope)
  | piece :: rest => do
    let (first, scope) ← piece.render scope
    let (others, scope) ← Piece.renderAll scope rest
    return (first ++ others, scope)

end

/-- The text of a template for a date. A template that is written wrongly fails before anything
is evaluated. -/
def render (source : Text) (day : Date) : Except Fault Text := do
  let pieces ← Piece.ofText source
  if Piece.areKnown true pieces then
    let (text, _) ← Piece.renderAll (Scope.initial day) pieces
    return text
  else throw .unknownName

end Daybook.Template
