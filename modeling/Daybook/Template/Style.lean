import Daybook.Template.Datum

/-!
# Styles of fields

A value that is written into a pattern fills a field. The style of the field says how wide it
is at least, where the text stands in it and what fills the rest, which sign stands before
numbers, and how many digits are written.
-/
namespace Daybook.Template

/-- Where a text stands in a field that is wider. -/
inductive Place where
  | left
  | right
  | centre
  /-- At the right, with its sign at the left. -/
  | apart
  deriving DecidableEq, Repr

/-- The style of a field. -/
structure Style where
  fill : Char := ' '
  place : Place := .right
  /-- What stands before numbers that are not below zero. -/
  sign : Text := []
  /-- The base of a whole number is marked, and other numbers keep their point and zeros. -/
  marked : Bool := false
  width : Nat := 0
  /-- What stands between groups of digits. -/
  between : Option Char := none
  precision : Option Nat := none
  deriving DecidableEq, Repr

namespace Style

/-- A sign and a text in a field. -/
def field (style : Style) (sign text : Text) : Text :=
  let missing := style.width - (sign.length + text.length)
  let filling (count : Nat) : Text := List.replicate count style.fill
  match style.place with
  | .left => sign ++ text ++ filling missing
  | .right => filling missing ++ sign ++ text
  | .centre => filling (missing / 2) ++ sign ++ text ++ filling (missing - missing / 2)
  | .apart => sign ++ filling missing ++ text

/-- The sign of a number. -/
def signFor (style : Style) (isNegative : Bool) : Text :=
  if isNegative then "-" else style.sign

/-- The base that a letter stands for, and the mark of the base. -/
def base : Char → Nat × Text
  | 'b' => (2, "0b")
  | 'o' => (8, "0o")
  | 'x' => (16, "0x")
  | 'X' => (16, "0X")
  | _ => (10, [])

/-- Digits in groups of the given size, counted from the last one. -/
def grouped (separator : Char) (size : Nat) (digits : Text) : Text :=
  ((digits.reverse.mapIdx fun n c =>
    if n ≠ 0 ∧ n % size = 0 then [separator, c] else [c]).flatten).reverse

/-- The digits of a natural number in the base of a letter. -/
def digits (letter : Char) (n : Nat) : Text :=
  let written := Nat.toDigits (base letter).1 n
  if letter = 'X' then written.map Char.toUpper else written

/-- A whole number in the base of a letter. -/
def whole (style : Style) (letter : Char) (n : Int) : Text :=
  let written := digits letter n.natAbs
  let written := Text.padLeft '0' (style.precision.getD 0) written
  let written := match style.between with
    | some separator => grouped separator (if (base letter).1 = 10 then 3 else 4) written
    | none => written
  let mark := if style.marked then (base letter).2 else []
  style.field (style.signFor (decide (n < 0)) ++ mark) written

/-- The size of a number with a point, in the form of a letter. A letter that means no form
stands for a form with a point in any case. -/
def size (style : Style) (letter : Char) (x : Fraction) : Text :=
  let precision := style.precision.getD 6
  match letter.toLower with
  | 'f' => x.fixed style.marked precision
  | 'e' => x.scientific style.marked precision
  | '%' => (x.multiply (Fraction.ofInt 100)).fixed style.marked precision ++ "%"
  | 'g' => x.general style.marked false precision
  | _ => x.general style.marked true precision

/-- A number with a point, in the form of a letter. -/
def fraction (style : Style) (letter : Char) (x : Fraction) : Text :=
  let written := style.size letter x
  let written := match style.between with
    | some separator =>
      let digits := written.takeWhile Char.isDigit
      grouped separator 3 digits ++ written.drop digits.length
    | none => written
  let written := if letter.isUpper then written.map Char.toUpper else written
  style.field (style.signFor x.isNegative) written

/-- A text, of which at most as many characters are written as the precision says. -/
def text (style : Style) (text : Text) : Text :=
  style.field [] (match style.precision with
    | some count => text.take count
    | none => text)

/-- A field has at least its width. -/
theorem width_le_length_field (style : Style) (sign text : Text) :
    style.width ≤ (style.field sign text).length := by
  unfold field
  cases style.place <;> simp [List.length_append, List.length_replicate] <;> omega

end Style

end Daybook.Template
