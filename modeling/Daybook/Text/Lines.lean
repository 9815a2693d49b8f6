import Daybook.Text

/-!
# Lines

Two notions of a line live side by side. A ledger file counts its lines by line
feeds alone, while a report that is shown line by line breaks at every character
that ends a line on some device. This module holds the second notion.
-/
namespace Daybook.Text

/-- The characters that end a line: line feed, carriage return, vertical tab, form
feed, the three upper information separators, next line, and the line and
paragraph separators. -/
def isLineBreak (c : Char) : Bool :=
  let code := c.toNat
  (0x0A ≤ code && code ≤ 0x0D) || (0x1C ≤ code && code ≤ 0x1E) || code == 0x85 ||
    code == 0x2028 || code == 0x2029

/-- The lines of a text without their ends. A carriage return and the line feed
after it end one line together, and nothing after the last end is no line. -/
def lines : Text → List Text
  | [] => []
  | '\r' :: '\n' :: rest => [] :: lines rest
  | c :: rest =>
    if isLineBreak c then [] :: lines rest
    else match lines rest with
      | [] => [[c]]
      | line :: others => (c :: line) :: others

end Daybook.Text
