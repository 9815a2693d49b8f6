import Daybook.Text

/-!
# Blank characters

The blank characters are the ones that separate words: the control characters
that move the pen, the four information separators, and the spaces and
separators of the wider character set. Trimming removes them at the ends of a
text, and the words of a text are what they leave between them.
-/
namespace Daybook.Text

/-- Blank characters: U+0009 to U+000D, U+001C to U+0020, U+0085, U+00A0, U+1680,
U+2000 to U+200A, U+2028, U+2029, U+202F, U+205F and U+3000. -/
def isBlank (c : Char) : Bool :=
  let code := c.toNat
  (0x09 ≤ code && code ≤ 0x0D) || (0x1C ≤ code && code ≤ 0x20) || code == 0x85 ||
    code == 0xA0 || code == 0x1680 || (0x2000 ≤ code && code ≤ 0x200A) ||
    code == 0x2028 || code == 0x2029 || code == 0x202F || code == 0x205F || code == 0x3000

/-- The text without the blank characters at its beginning. -/
def trimLeft (text : Text) : Text :=
  text.dropWhile isBlank

/-- The text without the blank characters at its end. -/
def trimRight (text : Text) : Text :=
  (text.reverse.dropWhile isBlank).reverse

/-- The text without the blank characters at either end. -/
def trim (text : Text) : Text :=
  trimRight (trimLeft text)

/-- The words of a text: its longest stretches without a blank character. -/
def words : Text → List Text
  | [] => []
  | c :: rest =>
    if isBlank c then words rest
    else match rest with
      | [] => [[c]]
      | next :: _ =>
        if isBlank next then [c] :: words rest
        else match words rest with
          | [] => [[c]]
          | word :: others => (c :: word) :: others

/-- Every white-space character of the basic set is blank. -/
theorem isBlank_of_isWhitespace {c : Char} (white : c.isWhitespace = true) :
    isBlank c = true := by
  simp only [Char.isWhitespace, Bool.or_eq_true, decide_eq_true_eq] at white
  obtain ((rfl | rfl) | rfl) | rfl := white <;> decide

end Daybook.Text
