import Daybook.Text.Numeral

/-!
# Numbers with a point

A number with a point is held as a binary fraction: a significand of at most 53 binary digits
times a power of two. What is written in decimal is rounded to the nearest such number, of two
equally near ones to that with the even significand, and so is what sums and products give.
Numbers that are too large are infinite.

In decimal a number is written with the fewest digits that read back as the same number, and of
those with the nearest. All arithmetic is on natural numbers and therefore exact.
-/
namespace Daybook

/-- A number with a point. -/
inductive Fraction where
  /-- The significand times two to the power of the exponent. -/
  | finite (negative : Bool) (significand : Nat) (exponent : Int)
  | infinite (negative : Bool)
  /-- No number at all. -/
  | indefinite
  deriving DecidableEq, Repr

namespace Fraction

/-- A quotient rounded to the nearest whole number, and to the even one of two equally near
ones. -/
def roundedQuotient (above below : Nat) : Nat :=
  let whole := above / below
  let double := 2 * (above % below)
  if double < below ∨ (double = below ∧ whole % 2 = 0) then whole else whole + 1

/-- A quotient times a power of a base, as a quotient. -/
def scaled (base above below : Nat) : Int → Nat × Nat
  | .ofNat n => (above * Nat.pow base n, below)
  | .negSucc n => (above, below * Nat.pow base (n + 1))

/-- The least exponent that a number has. -/
def leastExponent : Int := -1074

/-- The largest exponent that a number has. -/
def largestExponent : Int := 971

/-- The number of values that a significand has, none of them with more than 53 digits. -/
def significands : Nat := 9007199254740992

/-- The number nearest to a quotient. -/
def ofQuotient (negative : Bool) (above below : Nat) : Fraction :=
  if above = 0 then finite negative 0 0
  else
    let ratio : Int := Int.ofNat above.log2 - Int.ofNat below.log2
    let (left, right) := scaled 2 above below (-ratio)
    let exponent := max leastExponent (if left < right then ratio - 53 else ratio - 52)
    let (left, right) := scaled 2 above below (-exponent)
    let significand := roundedQuotient left right
    let (significand, exponent) :=
      if significand = significands then (significands / 2, exponent + 1)
      else (significand, exponent)
    if largestExponent < exponent then infinite negative
    else finite negative significand exponent

/-- The number nearest to a decimal significand times a power of ten. Powers that only very
large and very small numbers have are not worked out. -/
def ofDecimal (negative : Bool) (significand : Nat) (exponent : Int) : Fraction :=
  let size : Int := Int.ofNat (Text.decimal significand).length + exponent
  if significand = 0 ∨ size < -400 then finite negative 0 0
  else if 400 < size then infinite negative
  else
    let (above, below) := scaled 10 significand 1 exponent
    ofQuotient negative above below

/-- The number nearest to a whole number. -/
def ofInt (value : Int) : Fraction :=
  ofQuotient (value < 0) value.natAbs 1

/-- The number with the other sign. -/
def negate : Fraction → Fraction
  | finite negative significand exponent => finite (!negative) significand exponent
  | infinite negative => infinite (!negative)
  | indefinite => indefinite

/-- The number is zero. -/
def isZero : Fraction → Bool
  | finite _ significand _ => significand == 0
  | _ => false

/-- The product of two numbers. -/
def multiply : Fraction → Fraction → Fraction
  | finite n a e, finite n' a' e' =>
    let (above, below) := scaled 2 (a * a') 1 (e + e')
    ofQuotient (n != n') above below
  | infinite n, finite n' a _ => if a = 0 then indefinite else infinite (n != n')
  | finite n a _, infinite n' => if a = 0 then indefinite else infinite (n != n')
  | infinite n, infinite n' => infinite (n != n')
  | _, _ => indefinite

/-- A signed significand in terms of a smaller exponent. -/
def aligned (negative : Bool) (significand : Nat) (exponent least : Int) : Int :=
  let size := Int.ofNat (significand * Nat.pow 2 (exponent - least).toNat)
  if negative then -size else size

/-- The sum of two numbers. -/
def add : Fraction → Fraction → Fraction
  | finite n a e, finite n' a' e' =>
    let least := min e e'
    let sum := aligned n a e least + aligned n' a' e' least
    let (above, below) := scaled 2 sum.natAbs 1 least
    ofQuotient (if sum = 0 then n && n' else sum < 0) above below
  | infinite n, infinite n' => if n = n' then infinite n else indefinite
  | infinite n, finite _ _ _ => infinite n
  | finite _ _ _, infinite n' => infinite n'
  | _, _ => indefinite

/-- The whole number that a number is equal to, if there is one. -/
def toInt? : Fraction → Option Int
  | finite negative significand exponent =>
    let (above, below) := scaled 2 significand 1 exponent
    if above % below = 0 then
      let size := Int.ofNat (above / below)
      some (if negative then -size else size)
    else none
  | _ => none

/-- Two numbers are equal; the sign of zero does not count. -/
def same : Fraction → Fraction → Bool
  | finite n a e, finite n' a' e' => (a == 0 && a' == 0) || (n == n' && a == a' && e == e')
  | infinite n, infinite n' => n == n'
  | indefinite, indefinite => true
  | _, _ => false

/-- A finite number as a quotient of whole numbers. -/
def ratio? : Fraction → Option (Int × Nat)
  | finite negative significand exponent =>
    let (above, below) := scaled 2 significand 1 exponent
    some (if negative then -Int.ofNat above else Int.ofNat above, below)
  | _ => none

/-- The number nearest to a quotient of whole numbers, of which the lower one is not zero. -/
def ofRatio (above below : Int) : Fraction :=
  ofQuotient (decide (above < 0) != decide (below < 0)) above.natAbs below.natAbs

/-- The number is below zero, or the zero with a minus sign. -/
def isNegative : Fraction → Bool
  | finite negative _ _ => negative
  | infinite negative => negative
  | indefinite => false

/-- The zero with the sign of a quotient of two numbers. -/
def zeroOver (a b : Fraction) : Fraction :=
  finite (a.isNegative != b.isNegative) 0 0

/-- The quotient of two numbers, of which the second is not zero. -/
def divide (a b : Fraction) : Fraction :=
  match a.ratio?, b.ratio? with
  | some (p, q), some (r, s) =>
    if p = 0 then zeroOver a b else ofRatio (p * Int.ofNat s) (Int.ofNat q * r)
  | some _, none => if b = indefinite then indefinite else zeroOver a b
  | none, some (r, _) => if r < 0 then a.negate else a
  | none, none => indefinite

/-- The largest whole number that is not above the quotient of two finite numbers, of which the
second is not zero. -/
def wholeQuotient? (a b : Fraction) : Option Int :=
  match a.ratio?, b.ratio? with
  | some (p, q), some (r, s) => some (Int.fdiv (p * Int.ofNat s) (Int.ofNat q * r))
  | _, _ => none

/-- What is left of a number after it has been divided by another one, which is not zero, with
a whole quotient. A zero has the sign of the other number. -/
def remainder (a b : Fraction) : Fraction :=
  match a.ratio?, b.ratio?, wholeQuotient? a b with
  | some (p, q), some (r, s), some n =>
    let rest := p * Int.ofNat s - n * r * Int.ofNat q
    if rest = 0 then finite (decide (r < 0)) 0 0 else ofRatio rest (Int.ofNat (q * s))
  | _, _, _ => indefinite

/-- The largest whole number that is not above a number. -/
def floor? (a : Fraction) : Option Int :=
  a.ratio?.map fun (above, below) => Int.fdiv above (Int.ofNat below)

/-- The least whole number that is not below a number. -/
def ceiling? (a : Fraction) : Option Int :=
  a.ratio?.map fun (above, below) => -Int.fdiv (-above) (Int.ofNat below)

/-- The whole part of a number. -/
def truncate? (a : Fraction) : Option Int :=
  a.ratio?.map fun (above, below) => Int.tdiv above (Int.ofNat below)

/-- The whole number nearest to a number whose distance from one is small, and the one below it
otherwise. -/
def settled (a : Fraction) : Fraction :=
  match a.floor? with
  | none => a
  | some n =>
    match (a.add (ofInt (-n))).ratio? with
    | some (above, below) =>
      if Int.ofNat below < 2 * above then (ofInt n).add (ofInt 1) else ofInt n
    | none => a

/-- The quotient of two finite numbers, of which the second is not zero, without what is left of
it below one. What is left is taken away before the division, and both round. -/
def floorQuotient (a b : Fraction) : Fraction :=
  match a.ratio?, b.ratio? with
  | some (p, q), some (r, s) =>
    let rest := Int.tmod (p * Int.ofNat s) (Int.ofNat q * r)
    let taken := ofRatio rest (Int.ofNat (q * s))
    let quotient := (a.add taken.negate).divide b
    let quotient := if rest ≠ 0 ∧ (rest < 0 ↔ 0 < r) then quotient.add (ofInt (-1)) else quotient
    if quotient.isZero then zeroOver a b else quotient.settled
  | _, _ => indefinite

/-- The order of two numbers, if they have one. -/
def order? (a b : Fraction) : Option Ordering :=
  match a, b with
  | indefinite, _ => none
  | _, indefinite => none
  | infinite n, infinite n' => some (compare n' n)
  | infinite n, finite _ _ _ => some (if n then .lt else .gt)
  | finite _ _ _, infinite n => some (if n then .gt else .lt)
  | a, b =>
    match a.ratio?, b.ratio? with
    | some (p, q), some (r, s) => some (compare (p * Int.ofNat s) (r * Int.ofNat q))
    | _, _ => none

/-! ## In decimal -/

/-- A positive number between the two numbers half way to its neighbours: four times its
significand, the same for the bounds, and whether they read back as the number. -/
structure Vicinity where
  below : Nat
  value : Nat
  above : Nat
  closed : Bool

/-- The vicinity of a significand. The neighbour below is nearer where the exponent changes. -/
def vicinity (significand : Nat) (exponent : Int) : Vicinity where
  below :=
    if 2 * significand = significands ∧ leastExponent < exponent then 4 * significand - 1
    else 4 * significand - 2
  value := 4 * significand
  above := 4 * significand + 2
  closed := significand % 2 == 0

/-- The exponents that the last digit of a written number may have, from the least on. -/
def firstPlace : Int := -345

/-- The place before which the decimal digits of a quotient begin: the least power of ten
above it. -/
def place (above below : Nat) : Int :=
  let exponent (n : Nat) : Int := firstPlace + Int.ofNat n
  let past (n : Nat) : Bool :=
    let (left, right) := scaled 10 1 1 (exponent n)
    above * right < left * below
  exponent (((List.range 700).find? past).getD 700)

/-- A number of `count` digits that reads back as the number of the vicinity, in terms of the
place of its last digit. -/
def digits? (near : Vicinity) (exponent : Int) (place : Int) (count : Nat) :
    Option (Nat × Int) :=
  let last := place - Int.ofNat count
  let (up, down) := scaled 2 1 4 exponent
  let (up, down) := scaled 10 up down (-last)
  let low := near.value * up / down
  let readsBack (n : Nat) : Bool :=
    if near.closed then near.below * up ≤ n * down && n * down ≤ near.above * up
    else near.below * up < n * down && n * down < near.above * up
  if readsBack low && readsBack (low + 1) then
    some (roundedQuotient (near.value * up) down, last)
  else if readsBack low then some (low, last)
  else if readsBack (low + 1) then some (low + 1, last)
  else none

/-- The fewest digits that read back as a positive number, and the place of the last one. -/
def shortest (significand : Nat) (exponent : Int) : Nat × Int :=
  let near := vicinity significand exponent
  let (above, below) := scaled 2 significand 1 exponent
  let place := place above below
  ((List.range 17).findSome? fun n => digits? near exponent place (n + 1)).getD
    (significand, exponent)

/-- Digits with a point after the first `point` ones. Very small and very large numbers are
written with a power of ten. -/
def withPoint (digits : Text) (point : Int) : Text :=
  if -4 < point ∧ point ≤ 16 then
    if point ≤ 0 then "0." ++ List.replicate (-point).toNat '0' ++ digits
    else if digits.length ≤ point.toNat then
      digits ++ List.replicate (point.toNat - digits.length) '0' ++ ".0"
    else digits.take point.toNat ++ '.' :: digits.drop point.toNat
  else
    let power := point - 1
    let rest := digits.drop 1
    digits.take 1 ++ (if rest = [] then [] else '.' :: rest) ++
      (if power < 0 then "e-" else "e+") ++ Text.padLeft '0' 2 (Text.decimal power.natAbs)

/-- The display form of a number. -/
def display : Fraction → Text
  | finite negative significand exponent =>
    let sign : Text := if negative then "-" else ""
    if significand = 0 then sign ++ "0.0"
    else
      let (digits, last) := shortest significand exponent
      let written := Text.decimal digits
      let point := Int.ofNat written.length + last
      sign ++ withPoint ((written.reverse.dropWhile (· == '0')).reverse) point
  | infinite negative => if negative then "-inf" else "inf"
  | indefinite => "nan"

/-- A natural number with a point before its last digits. A point behind all digits is written
if `keeps` says so. -/
def pointed (keeps : Bool) (places : Nat) (n : Nat) : Text :=
  let digits := Text.padLeft '0' (places + 1) (Text.decimal n)
  if places = 0 ∧ !keeps then digits
  else digits.take (digits.length - places) ++ '.' :: digits.drop (digits.length - places)

/-- The size of a finite number in units of the given decimal place after the point, rounded to
a whole number. -/
def units? (places : Int) (a : Fraction) : Option Nat :=
  a.ratio?.map fun (above, below) =>
    let (up, down) := scaled 10 above.natAbs below places
    roundedQuotient up down

/-- The size of a number with the given number of digits after the point. -/
def fixed (keeps : Bool) (places : Nat) (a : Fraction) : Text :=
  match a.units? (Int.ofNat places) with
  | some n => pointed keeps places n
  | none => if a = indefinite then "nan" else "inf"

/-- The size of a finite number rounded to so many digits, and the power of ten of the first
one. -/
def leading? (count : Nat) (a : Fraction) : Option (Nat × Int) :=
  a.ratio?.map fun (above, below) =>
    if above = 0 then (0, 0)
    else
      let first := place above.natAbs below
      let (up, down) := scaled 10 above.natAbs below (Int.ofNat count - first)
      let n := roundedQuotient up down
      if n = Nat.pow 10 count then (n / 10, first) else (n, first - 1)

/-- A power of ten behind a number. -/
def powerText (power : Int) : Text :=
  (if power < 0 then "e-" else "e+") ++ Text.padLeft '0' 2 (Text.decimal power.natAbs)

/-- The size of a number with one digit before the point, so many behind it, and a power of
ten. -/
def scientific (keeps : Bool) (places : Nat) (a : Fraction) : Text :=
  match a.leading? (places + 1) with
  | some (n, power) => pointed keeps places n ++ powerText power
  | none => if a = indefinite then "nan" else "inf"

/-- Digits with a point in them, without the zeros at the end and without a point behind which
nothing is left. -/
def withoutZeros (digits : Text) : Text :=
  if '.' ∈ digits then
    let kept := (digits.reverse.dropWhile (· == '0')).reverse
    if kept.getLast? = some '.' then kept.dropLast else kept
  else digits

/-- The size of a number with so many digits at most: those with a point in them if the power of
ten of the first digit is small, and else those with the power behind them. Zeros at the end are
written if `keeps` says so. With `isPointed` there is a digit behind the point in any case. -/
def general (keeps isPointed : Bool) (count : Nat) (a : Fraction) : Text :=
  let count := max 1 count
  let kept (digits : Text) : Text := if keeps then digits else withoutZeros digits
  match a.leading? count with
  | some (n, power) =>
    if -4 ≤ power ∧ power < Int.ofNat (if isPointed then count - 1 else count) then
      let digits := kept (a.fixed keeps (Int.ofNat count - 1 - power).toNat)
      if isPointed ∧ '.' ∉ digits then digits ++ ".0" else digits
    else kept (pointed keeps (count - 1) n) ++ powerText power
  | none => if a = indefinite then "nan" else "inf"

/-- The number nearest to a number rounded at a decimal place after the point. -/
def roundedAt (places : Int) (a : Fraction) : Fraction :=
  match a.units? places with
  | some n => ofDecimal a.isNegative n (-places)
  | none => a

/-! ## From decimal -/

/-- The exponent that a text after the digits writes, if it writes one or nothing. -/
def exponent? : Text → Option Int
  | [] => some 0
  | mark :: rest =>
    if mark = 'e' ∨ mark = 'E' then
      let (negative, digits) : Bool × Text := match rest with
        | '-' :: digits => (true, digits)
        | '+' :: digits => (false, digits)
        | digits => (false, digits)
      if digits ≠ [] ∧ digits.all (fun c => (Text.digitValue c).isSome) then
        let size := Int.ofNat (digits.foldl (fun n c => 10 * n + (Text.digitValue c).getD 0) 0)
        some (if negative then -size else size)
      else none
    else none

/-- A number from its digits, perhaps with a point among them, and perhaps an exponent. -/
def ofDigits? (negative : Bool) (written : Text) : Option Fraction :=
  let isDigit (c : Char) : Bool := (Text.digitValue c).isSome
  let whole := written.takeWhile isDigit
  let after := written.dropWhile isDigit
  let decimals := if after.head? = some '.' then (after.drop 1).takeWhile isDigit else []
  let tail := if after.head? = some '.' then (after.drop 1).dropWhile isDigit else after
  let digits := whole ++ decimals
  if digits = [] then none
  else (exponent? tail).map fun exponent =>
    ofDecimal negative
      (digits.foldl (fun n c => 10 * n + (Text.digitValue c).getD 0) 0)
      (exponent - Int.ofNat decimals.length)

/-- A number from a numeral: blank space, an optional sign, digits or a word, blank space. -/
def ofText? (text : Text) : Option Fraction :=
  let inner := Text.withoutSurroundings text
  let (negative, unsigned) : Bool × Text := match inner with
    | '-' :: rest => (true, rest)
    | '+' :: rest => (false, rest)
    | rest => (false, rest)
  let word := unsigned.map Char.toLower
  if word = "inf".toList ∨ word = "infinity".toList then some (infinite negative)
  else if word = "nan".toList then some indefinite
  else ofDigits? negative unsigned

end Fraction

end Daybook
