import Daybook.Template.Datum

/-!
# Reckoning with values

Sums, differences, products, quotients, remainders and powers. Whole numbers stay whole, except
in quotients; a number with a point makes the result one. Texts and series can be put together
and repeated. The remainder of a text is the text as a pattern, which `Pattern.fill` makes and
which is not done here.
-/
namespace Daybook.Template

namespace Datum

/-- The sign of an operation. -/
def signOf : Operation → Text
  | .add => "+"
  | .subtract => "-"
  | .multiply => "*"
  | .divide => "/"
  | .floorDivide => "//"
  | .remainder => "%"
  | .power => "** or pow()"

/-- The fault of an operation on values of the wrong kinds. -/
def unsupported (kind : Operation) (a b : Datum) : Fault :=
  .mismatch ("unsupported operand type(s) for " ++ signOf kind ++ ": '" ++ a.kind ++ "' and '" ++
    b.kind ++ "'")

/-- The number with a point that is nearest to a number. -/
def Quantity.toFraction : Quantity → Except Fault Fraction
  | .fraction value => .ok value
  | .whole value =>
    match Fraction.ofInt value with
    | .infinite _ => .error (.overflow "int too large to convert to float")
    | value => .ok value

/-- The largest number of binary digits of a power that is worked out. -/
def largestPower : Nat := 200000

/-- The fault of writing a whole number with too many digits. -/
def tooLarge : Fault :=
  .unacceptable Text.unwritableNumber

/-- A power of a whole number. A power that is too large to be written is not worked out. -/
def wholePower (a b : Int) : Except Fault Datum :=
  match b with
  | .ofNat n =>
    if largestPower < a.natAbs.log2 * n then .error tooLarge else .ok (whole (Int.pow a n))
  | .negSucc n =>
    if a = 0 then .error (.divisionByZero "0.0 cannot be raised to a negative power")
    else if largestPower < a.natAbs.log2 * n then .ok (fraction (Fraction.ofInt 0))
    else .ok (fraction (Fraction.ofRatio 1 (Int.pow a (n + 1))))

/-- An operation on two whole numbers. -/
def onWhole (kind : Operation) (a b : Int) : Except Fault Datum :=
  match kind with
  | .add => .ok (whole (a + b))
  | .subtract => .ok (whole (a - b))
  | .multiply => .ok (whole (a * b))
  | .divide =>
    if b = 0 then .error (.divisionByZero "division by zero")
    else match Fraction.ofRatio a b with
      | .infinite _ => .error (.overflow "integer division result too large for a float")
      | value => .ok (fraction value)
  | .floorDivide =>
    if b = 0 then .error (.divisionByZero "integer division or modulo by zero")
    else .ok (whole (Int.fdiv a b))
  | .remainder =>
    if b = 0 then .error (.divisionByZero "integer modulo by zero")
    else .ok (whole (Int.fmod a b))
  | .power => wholePower a b

/-- An operation on two numbers of which at least one has a point. -/
def onFractions (kind : Operation) (a b : Fraction) : Except Fault Datum :=
  match kind with
  | .add => .ok (fraction (a.add b))
  | .subtract => .ok (fraction (a.add b.negate))
  | .multiply => .ok (fraction (a.multiply b))
  | .divide =>
    if b.isZero then .error (.divisionByZero "float division by zero")
    else .ok (fraction (a.divide b))
  | .floorDivide =>
    if b.isZero then .error (.divisionByZero "float floor division by zero")
    else .ok (fraction (a.floorQuotient b))
  | .remainder =>
    if b.isZero then .error (.divisionByZero "float modulo")
    else .ok (fraction (a.remainder b))
  | .power =>
    match b.toInt? with
    | some (.ofNat n) =>
      if 64 < n then .error (.mismatch [])
      else .ok (fraction ((List.replicate n a).foldl Fraction.multiply (Fraction.ofInt 1)))
    | _ => .error (.mismatch [])

/-- A text or a series repeated so many times. -/
def repeated (count : Int) : Datum → Option Datum
  | text value => some (text (List.replicate count.toNat value).flatten)
  | series kind items =>
    if kind = .stream then none else some (series kind (List.replicate count.toNat items).flatten)
  | _ => none

/-- The value can be put together with others of its kind, and repeated. -/
def isSequence : Datum → Bool
  | text _ => true
  | series kind _ => kind ≠ .stream
  | _ => false

/-- The value of an operation on two values. -/
def operate (kind : Operation) (a b : Datum) : Except Fault Datum :=
  match a, b with
  | undefined forbidden, _ => .error (refusal forbidden)
  | _, undefined forbidden => .error (refusal forbidden)
  | a, b =>
    match a.quantity?, b.quantity? with
    | some (.whole a), some (.whole b) => onWhole kind a b
    | some p, some q => do
      let a ← p.toFraction
      let b ← q.toFraction
      onFractions kind a b
    | _, _ =>
      match kind, a, b with
      | .add, text a, text b => .ok (text (a ++ b))
      | .add, series .list a, series .list b => .ok (series .list (a ++ b))
      | .add, series .tuple a, series .tuple b => .ok (series .tuple (a ++ b))
      | .add, a, b =>
        if a.isSequence then
          .error (.mismatch ("can only concatenate " ++ a.kind ++ " (not \"" ++ b.kind ++
            "\") to " ++ a.kind))
        else .error (unsupported kind a b)
      | .multiply, a, b =>
        if a.isSequence ∨ b.isSequence then
          let (sequence, count) := if a.isSequence then (a, b) else (b, a)
          match count.whole? with
          | some n =>
            match sequence.repeated n with
            | some value => .ok value
            | none => .error (unsupported kind a b)
          | none =>
            .error (.mismatch ("can't multiply sequence by non-int of type '" ++ count.kind ++
              "'"))
        else .error (unsupported kind a b)
      | kind, a, b => .error (unsupported kind a b)

/-- A number with a sign in front of it. -/
def signed (negative : Bool) (value : Datum) : Except Fault Datum :=
  match value with
  | undefined forbidden => .error (refusal forbidden)
  | value =>
    match value.quantity? with
    | some (.whole n) => .ok (whole (if negative then -n else n))
    | some (.fraction x) => .ok (fraction (if negative then x.negate else x))
    | none =>
      .error (.mismatch ("bad operand type for unary " ++ (if negative then "-" else "+") ++
        ": '" ++ value.kind ++ "'"))

/-! ## Entries and portions -/

/-- The position that an index means among so many items, if there is one. An index below zero
counts from the end. -/
def positionAt (count : Nat) (index : Int) : Option Nat :=
  let position := if index < 0 then index + Int.ofNat count else index
  if 0 ≤ position ∧ position < Int.ofNat count then some position.toNat else none

/-- A bound of a portion, if it is one. -/
def bound? : Datum → Option (Option Int)
  | nothing => some none
  | value => value.whole?.map some

/-- The positions of a portion among so many items, as the first one, the one behind the last,
and the step. -/
def positions (count : Nat) (start stop : Option Int) (step : Int) : Int × Int × Int :=
  let size := Int.ofNat count
  let within (least most value : Int) : Int :=
    max least (min most (if value < 0 then value + size else value))
  if 0 < step then
    (start.elim 0 (within 0 size), stop.elim size (within 0 size), step)
  else
    (start.elim (size - 1) (within (-1) (size - 1)), stop.elim (-1) (within (-1) (size - 1)),
      step)

/-- The items at the positions of a portion. -/
def atPositions {α : Type} (items : List α) : Int × Int × Int → List α
  | (start, stop, step) =>
    let items := items.toArray
    (List.range (rangeLength start stop step)).filterMap fun n =>
      items[(start + step * Int.ofNat n).toNat]?

/-- A portion of a value, if values of its kind have portions. -/
def portion? (owner start stop step : Datum) : Except Fault (Option Datum) :=
  match start.bound?, stop.bound?, step.bound? with
  | some start, some stop, some step =>
    let step := step.getD 1
    if !owner.isSequence then .ok none
    else if step = 0 then .error (.unacceptable "slice step cannot be zero")
    else match owner with
      | text value => .ok (some (text (atPositions value (positions value.length start stop step))))
      | series kind items =>
        let kind := if kind = .list then .list else .tuple
        .ok (some (series kind (atPositions items (positions items.length start stop step))))
      | _ => .ok none
  | _, _, _ => .ok none

/-- The entry of a value under a key, if there is one. -/
def entryAt? (owner key : Datum) : Except Fault (Option Datum) :=
  match owner, key with
  | undefined forbidden, _ => .error (refusal forbidden)
  | owner, bounds start stop step => portion? owner start stop step
  | record keys values, key =>
    .ok (((keys.zip values).find? fun (held, _) => same held key).map (·.2))
  | owner, key =>
    match key.whole? with
    | none => .ok none
    | some index =>
      match owner with
      | text value => .ok ((positionAt value.length index).bind fun n => value[n]?.map fun c =>
          text [c])
      | series .stream _ => .ok none
      | series _ items => .ok ((positionAt items.length index).bind fun n => items[n]?)
      | range start stop step =>
        .ok ((positionAt (rangeLength start stop step) index).map fun n =>
          whole (start + step * Int.ofNat n))
      | _ => .ok none

end Datum

end Daybook.Template
