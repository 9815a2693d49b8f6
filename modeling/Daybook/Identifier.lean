import Daybook.Failure

/-!
# Transaction ids

A transaction is named by the file it stands in and the offset of its first byte: the
path, a colon, and the offset in decimal. The path is kept exactly as it is written, so
that an id opens the file it was made from. A path with a colon in it has ids that cannot
be read back, because reading stops at the first colon.
-/
namespace Daybook

/-- Where a transaction stands. -/
structure Identifier where
  path : Text
  offset : Nat
  deriving DecidableEq, Repr

namespace Identifier

/-- The written form of an id. -/
def encode (id : Identifier) : Text :=
  id.path ++ ':' :: Text.decimal id.offset

/-- The written form of a path and an offset, which must not be negative. A refused offset is
written as well, so that its digits are counted before its sign is seen. -/
def make (path : Text) (offset : Int) : Except Failure Text :=
  if Text.mostDigits < (Text.decimal offset.natAbs).length then .error .unwritableOffset
  else
    match offset with
    | .ofNat n => .ok (encode ⟨path, n⟩)
    | .negSucc _ => .error (.negativeOffset offset)

/-- The path and the offset of a written id. -/
def decode (written : Text) : Except Failure Identifier :=
  match Text.cutAt ':' written with
  | none => .error (.notAnIdentifier written)
  | some (path, offset) =>
    if path = [] then .error (.notAnIdentifier written)
    else if offset ≠ [] ∧ offset.all Char.isDigit then
      if Text.mostDigits < offset.length then .error (.endlessOffset offset.length)
      else .ok ⟨path, Nat.ofDigitChars 10 offset 0⟩
    else .error (.notAnOffset written offset)

end Identifier

end Daybook
