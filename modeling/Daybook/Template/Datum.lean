import Daybook.Date.Calendar
import Daybook.Template
import Daybook.Text.Display
import Daybook.Text.Search

/-!
# The values of terms

A term has a value: nothing, a truth value, a number, a text, a date, a series of values, a
record, or something that can be called. A name or a member that there is not has the undefined
value, which prints as nothing, counts as false, and fails when something is asked of it.

A value prints as a text. Inside a series or a record it is written in its display form, in
which a text has marks around it.
-/
namespace Daybook.Template

/-- The kinds of series. The week of a date and a moment are series whose items have names. -/
inductive SeriesKind where
  | tuple
  | list
  /-- Items that can be run through once. -/
  | stream
  | week
  | moment
  deriving DecidableEq, Repr

/-- The values of terms. -/
inductive Datum where
  /-- What is not defined, or is there and may not be used. -/
  | undefined (forbidden : Bool)
  | nothing
  | truth (value : Bool)
  | whole (value : Int)
  | fraction (value : Fraction)
  | text (value : Text)
  | date (value : Date)
  | series (kind : SeriesKind) (items : List Datum)
  | record (keys values : List Datum)
  /-- The whole numbers from the first up to the second in steps of the third. -/
  | range (start stop step : Int)
  /-- What a value does when it is called by this name. -/
  | method (owner : Datum) (name : Text)
  | function (name : Text)
  /-- A portion of a series. -/
  | bounds (start stop step : Datum)

/-- The names of the items of a week. -/
def weekNames : List Text :=
  ["year", "week", "weekday"]

/-- The names of the items of a moment. -/
def momentNames : List Text :=
  ["tm_year", "tm_mon", "tm_mday", "tm_hour", "tm_min", "tm_sec", "tm_wday", "tm_yday",
    "tm_isdst"]

namespace Datum

/-- The name of the kind of a value. -/
def kind : Datum → Text
  | undefined _ => "Undefined"
  | nothing => "NoneType"
  | truth _ => "bool"
  | whole _ => "int"
  | fraction _ => "float"
  | text _ => "str"
  | date _ => "datetime.date"
  | series .tuple _ => "tuple"
  | series .list _ => "list"
  | series .stream _ => "generator"
  | series .week _ => "datetime.IsoCalendarDate"
  | series .moment _ => "time.struct_time"
  | record _ _ => "dict"
  | range _ _ _ => "range"
  | method _ _ => "builtin_function_or_method"
  | function _ => "type"
  | bounds _ _ _ => "slice"

/-- Named items between brackets. -/
def displayNamed (heading : Text) (names items : List Text) : Text :=
  heading ++ "(" ++
    List.intercalate ", " ((names.zip items).map fun (name, item) => name ++ '=' :: item) ++ ")"

mutual

/-- The display form of a value. -/
def display : Datum → Text
  | undefined _ => "Undefined"
  | nothing => "None"
  | truth value => if value then "True" else "False"
  | whole value => Text.signedDecimal value
  | fraction value => value.display
  | text value => Text.display value
  | date value =>
    "datetime.date(" ++ Text.decimal value.year ++ ", " ++ Text.decimal value.month ++ ", " ++
      Text.decimal value.day ++ ")"
  | series kind items =>
    match kind, displayAll items with
    | .tuple, [item] => "(" ++ item ++ ",)"
    | .tuple, items => "(" ++ List.intercalate ", " items ++ ")"
    | .list, items => "[" ++ List.intercalate ", " items ++ "]"
    | .stream, _ => "<generator object>"
    | .week, items => displayNamed "datetime.IsoCalendarDate" weekNames items
    | .moment, items => displayNamed "time.struct_time" momentNames items
  | record keys values =>
    '\x7b' :: List.intercalate ", " (((displayAll keys).zip (displayAll values)).map
      fun (key, value) => key ++ ": " ++ value) ++ ['\x7d']
  | range start stop step =>
    let bounds := "range(" ++ Text.signedDecimal start ++ ", " ++ Text.signedDecimal stop
    if step = 1 then bounds ++ ")" else bounds ++ ", " ++ Text.signedDecimal step ++ ")"
  | method _ name => "<built-in method " ++ name ++ ">"
  | function name => "<class '" ++ name ++ "'>"
  | bounds start stop step =>
    "slice(" ++ display start ++ ", " ++ display stop ++ ", " ++ display step ++ ")"

/-- The display forms of values. -/
def displayAll : List Datum → List Text
  | [] => []
  | item :: items => display item :: displayAll items

end

/-- The text that a value prints as. -/
def print : Datum → Text
  | undefined _ => []
  | text value => value
  | date value => value.iso
  | other => other.display

/-- The number of items of a range. -/
def rangeLength (start stop step : Int) : Nat :=
  if 0 < step then ((stop - start + step - 1) / step).toNat
  else ((start - stop - step - 1) / (-step)).toNat

/-- A value counts as true unless it is undefined, nothing, false, zero or empty. -/
def holds : Datum → Bool
  | undefined _ => false
  | nothing => false
  | truth value => value
  | whole value => value != 0
  | fraction value => !value.isZero
  | text value => value != []
  | date _ => true
  | series kind items => kind = .stream || !items.isEmpty
  | record keys _ => !keys.isEmpty
  | range start stop step => rangeLength start stop step != 0
  | method _ _ => true
  | function _ => true
  | bounds _ _ _ => true

/-- The fault of asking something of the undefined value. -/
def refusal (forbidden : Bool) : Fault :=
  if forbidden then .forbidden else .undefinedValue

/-- The whole number that a value counts as, if it counts as one. -/
def whole? : Datum → Option Int
  | whole value => some value
  | truth value => some (if value then 1 else 0)
  | _ => none

/-- A number. -/
inductive Quantity where
  | whole (value : Int)
  | fraction (value : Fraction)

/-- The number that a value counts as, if it counts as one. -/
def quantity? : Datum → Option Quantity
  | fraction value => some (.fraction value)
  | other => other.whole?.map Quantity.whole

/-- The items of a value, if it has items. -/
def items? : Datum → Except Fault (List Datum)
  | text value => .ok (value.map fun c => text [c])
  | series _ items => .ok items
  | record keys _ => .ok keys
  | range start stop step =>
    .ok ((List.range (rangeLength start stop step)).map fun n =>
      whole (start + step * Int.ofNat n))
  | undefined forbidden => if forbidden then .error .forbidden else .ok []
  | other => .error (.mismatch ("'" ++ other.kind ++ "' object is not iterable"))

/-- The number of items of a value. -/
def length : Datum → Except Fault Int
  | text value => .ok value.length
  | series .stream _ => .error (.mismatch "object of type 'generator' has no len()")
  | series _ items => .ok items.length
  | record keys _ => .ok keys.length
  | range start stop step => .ok (rangeLength start stop step)
  | undefined forbidden => if forbidden then .error .forbidden else .ok 0
  | other => .error (.mismatch ("object of type '" ++ other.kind ++ "' has no len()"))

/-! ## Equality and order -/

/-- The order of two numbers, if they have one. -/
def Quantity.order? : Quantity → Quantity → Option Ordering
  | .whole a, .whole b => some (compare a b)
  | .whole a, .fraction b =>
    if let some (above, below) := b.ratio? then some (compare (a * Int.ofNat below) above)
    else (Fraction.ofInt 0).order? b
  | .fraction a, .whole b =>
    if let some (above, below) := a.ratio? then some (compare above (b * Int.ofNat below))
    else a.order? (Fraction.ofInt 0)
  | .fraction a, .fraction b => a.order? b

/-- Two values are the same. Series and records are so when they are written in the same
way. -/
def same (a b : Datum) : Bool :=
  match a, b with
  | undefined _, undefined _ => true
  | nothing, nothing => true
  | text a, text b => a == b
  | date a, date b => a == b
  | series .list a, series .list b => displayAll a == displayAll b
  | series .list _, series _ _ => false
  | series _ _, series .list _ => false
  | series .stream _, series _ _ => false
  | series _ _, series .stream _ => false
  | series _ a, series _ b => displayAll a == displayAll b
  | record _ _, record _ _ => display a == display b
  | range _ _ _, range _ _ _ => display a == display b
  | a, b =>
    match a.quantity?, b.quantity? with
    | some a, some b => a.order? b == some .eq
    | _, _ => false

/-- The order of two texts by their characters. -/
def textOrder (a b : Text) : Ordering :=
  if a = b then .eq else if Text.atMost a b then .lt else .gt

mutual

/-- The order of two values of one kind, if they have one. Series are in the order of the first
items that differ. The sign is that of the comparison that asks for it. -/
def order? (sign : Text) (a b : Datum) : Except Fault (Option Ordering) :=
  match a, b with
  | undefined forbidden, _ => .error (refusal forbidden)
  | _, undefined forbidden => .error (refusal forbidden)
  | text a, text b => .ok (some (textOrder a b))
  | date a, date b => .ok (some (Ord.compare a.ordinal b.ordinal))
  | series .list a, series .list b => orderAll? sign a b
  | series .tuple a, series .tuple b => orderAll? sign a b
  | a, b =>
    match a.quantity?, b.quantity? with
    | some a, some b => .ok (a.order? b)
    | _, _ =>
      .error (.mismatch ("'" ++ sign ++ "' not supported between instances of '" ++ a.kind ++
        "' and '" ++ b.kind ++ "'"))

/-- The order of two lists of values. -/
def orderAll? (sign : Text) (a b : List Datum) : Except Fault (Option Ordering) :=
  match a, b with
  | [], [] => .ok (some .eq)
  | [], _ :: _ => .ok (some .lt)
  | _ :: _, [] => .ok (some .gt)
  | a :: as, b :: bs => if same a b then orderAll? sign as bs else order? sign a b

end

/-- The first value is held by the second: a text by a text it is part of, and any value by a
series with the same value in it. -/
def heldBy (a b : Datum) : Except Fault Bool :=
  match a, b with
  | text a, text b => .ok (Text.cutAtText a b).isSome
  | a, text _ =>
    .error (.mismatch ("'in <string>' requires string as left operand, not " ++ a.kind))
  | a, b =>
    match b.items? with
    | .ok items => .ok (items.any (same a))
    | .error (.mismatch _) =>
      .error (.mismatch ("argument of type '" ++ b.kind ++ "' is not iterable"))
    | .error fault => .error fault

/-- The result of a comparison. -/
def compareBy (kind : Comparison) (a b : Datum) : Except Fault Bool :=
  match kind with
  | .equal => .ok (same a b)
  | .different => .ok !(same a b)
  | .less => (order? "<" a b).map (· == some .lt)
  | .lessOrEqual => (order? "<=" a b).map fun order => order == some .lt || order == some .eq
  | .greater => (order? ">" a b).map (· == some .gt)
  | .greaterOrEqual => (order? ">=" a b).map fun order => order == some .gt || order == some .eq
  | .held => heldBy a b
  | .notHeld => (heldBy a b).map fun held => !held

end Datum

end Daybook.Template
