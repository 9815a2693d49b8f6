import Daybook.Text.Numeral

/-!
# Byte ranges

A span is a range of bytes, given by the offset of its first byte and the offset after
its last. Two edits work on spans: replacing exactly the bytes of a span, and cutting a
span out together with the rest of its last line, so that no half line is left behind
and a blank line after the cut survives.

Offsets may be any whole numbers. A span that does not lie inside the content is
refused by both edits.
-/
namespace Daybook

/-- The bytes from offset `start` up to offset `stop`. -/
structure Span where
  start : Int
  stop : Int
  deriving DecidableEq, Repr

/-- A span that does not lie inside a content of `size` bytes. -/
structure OutOfRange where
  span : Span
  size : Nat
  deriving DecidableEq, Repr

namespace Span

/-- The span lies inside a content of `size` bytes and does not run backwards. -/
def Within (span : Span) (size : Nat) : Prop :=
  0 ≤ span.start ∧ span.start ≤ span.stop ∧ span.stop ≤ size

instance (span : Span) (size : Nat) : Decidable (span.Within size) :=
  inferInstanceAs (Decidable (_ ∧ _ ∧ _))

/-- What follows the first line end of a content; nothing when there is none. -/
def afterLine : Bytes → Bytes
  | [] => []
  | b :: rest => if b = 0x0A then rest else afterLine rest

/-- The content without the bytes of a span and without the rest of its last line. -/
def cutLines (content : Bytes) (span : Span) : Except OutOfRange Bytes :=
  if span.Within content.length then
    .ok (content.take span.start.toNat ++ afterLine (content.drop span.stop.toNat))
  else .error ⟨span, content.length⟩

/-- The content with other bytes in place of those of a span. -/
def replace (content : Bytes) (span : Span) (replacement : Bytes) : Except OutOfRange Bytes :=
  if span.Within content.length then
    .ok (content.take span.start.toNat ++ replacement ++ content.drop span.stop.toNat)
  else .error ⟨span, content.length⟩

end Span

/-- The refusal in words. -/
def OutOfRange.message (refused : OutOfRange) : Text :=
  "Span Span(start=" ++ Text.signedDecimal refused.span.start ++ ", end=" ++
    Text.signedDecimal refused.span.stop ++ ") out of range for " ++
    Text.decimal refused.size ++ " bytes"

end Daybook
