import Daybook.Template
import Daybook.Text.Alphanumeric
import Daybook.Text.Display

/-!
# Chunks and words

A template is first cut into chunks: literal text, outputs in double braces, tags between a
brace and a percent sign, and comments, which vanish. A hyphen inside the mark of a chunk
removes the blank space on that side of it. Between two tags of a special kind everything is
literal text. The insides of outputs and tags are cut into words; as long as a bracket is open
there, no mark closes the chunk.

The recursion is bounded by an allowance that the caller computes from the length of the text,
so no template exhausts it.
-/
namespace Daybook.Template

open Daybook.Text (isBlank trimRight)

/-- A word of a term. -/
inductive Word where
  | name (text : Text)
  | whole (value : Nat)
  | fraction (value : Fraction)
  | text (value : Text)
  | mark (text : Text)
  deriving DecidableEq, Repr

/-- A part of a template before its terms are read. -/
inductive Chunk where
  | literal (text : Text)
  | output (words : List Word)
  | tag (words : List Word)

/-- The kinds of chunks that are not literal text. -/
inductive Opening where
  | output
  | tag
  | comment
  deriving DecidableEq

/-- The literal text at the beginning of a template, and the opening after it with what
follows it. -/
def splitLiteral : Text → Text × Option (Opening × Text)
  | '\x7b' :: '\x7b' :: rest => ([], some (.output, rest))
  | '\x7b' :: '%' :: rest => ([], some (.tag, rest))
  | '\x7b' :: '#' :: rest => ([], some (.comment, rest))
  | c :: rest =>
    let (literal, opening) := splitLiteral rest
    (c :: literal, opening)
  | [] => ([], none)

/-- A text after the sign that may follow an opening. -/
def afterSign : Text → Text
  | '-' :: rest => rest
  | '+' :: rest => rest
  | text => text

/-- Literal text in front of an opening. The sign after the opening says whether blank space
goes. -/
def literalBefore (literal after : Text) : Text :=
  if after.head? = some '-' then trimRight literal else literal

/-- What follows a comment that has been opened, if it is closed. An opening at the very end
needs no closing mark. -/
def afterComment : Text → Option Text
  | [] => some []
  | text => closed text
where
  /-- What follows the closing mark. -/
  closed : Text → Option Text
    | '-' :: '#' :: '\x7d' :: rest => some (rest.dropWhile isBlank)
    | '#' :: '\x7d' :: rest => some rest
    | _ :: rest => closed rest
    | [] => none

/-- What follows the closing mark of an output or a tag, if it stands at the beginning. -/
def afterClosing (opening : Opening) (text : Text) : Option Text :=
  let first := if opening = .output then '\x7d' else '%'
  match text with
  | '-' :: a :: '\x7d' :: rest => if a = first then some (rest.dropWhile isBlank) else none
  | '+' :: '%' :: '\x7d' :: rest => if first = '%' then some rest else none
  | a :: '\x7d' :: rest => if a = first then some rest else none
  | _ => none

/-- What follows a tag that has been opened and holds a single word. -/
def afterTag? (word text : Text) : Option Text :=
  let inner := (afterSign text).dropWhile isBlank
  if word.isPrefixOf inner then
    afterClosing .tag ((inner.drop word.length).dropWhile isBlank)
  else none

/-- Literal text up to the tag that ends it, the inside of that tag with everything behind it,
and what follows the tag. -/
def untilRawEnd : Text → Option (Text × Text × Text)
  | [] => none
  | '\x7b' :: '%' :: rest =>
    match afterTag? "endraw" rest with
    | some after => some ([], rest, after)
    | none => (untilRawEnd ('%' :: rest)).map fun (literal, found) => ('\x7b' :: literal, found)
  | c :: rest => (untilRawEnd rest).map fun (literal, found) => (c :: literal, found)

/-! ## Words -/

/-- The characters that numbers in words of the given base are written with. -/
def isDigitIn (base : Nat) (c : Char) : Bool :=
  match Text.hexValue c with
  | some value => value < base
  | none => false

/-- Digits with single underscores between them, and what follows them. With `mayStart` an
underscore may stand before the first digit. -/
def digitsIn (base : Nat) (mayStart : Bool) : Text → Text × Text
  | '_' :: c :: rest =>
    if mayStart ∧ isDigitIn base c then
      let (digits, after) := digitsIn base true rest
      (c :: digits, after)
    else ([], '_' :: c :: rest)
  | c :: rest =>
    if isDigitIn base c then
      let (digits, after) := digitsIn base true rest
      (c :: digits, after)
    else ([], c :: rest)
  | [] => ([], [])

/-- The exponent at the beginning of a text, and what follows it. -/
def exponentOf? : Text → Option (Int × Text)
  | mark :: rest =>
    if mark = 'e' ∨ mark = 'E' then
      let (negative, unsigned) : Bool × Text := match rest with
        | '-' :: rest => (true, rest)
        | '+' :: rest => (false, rest)
        | rest => (false, rest)
      let (digits, after) := digitsIn 10 false unsigned
      if digits = [] then none
      else
        let size := Int.ofNat (Nat.ofDigitChars 10 digits 0)
        some (if negative then -size else size, after)
    else none
  | [] => none

/-- A number with a point or an exponent at the beginning of a text, and what follows it. -/
def fractionOf? (text : Text) : Option (Fraction × Text) :=
  let (whole, after) := digitsIn 10 false text
  if whole = [] then none
  else
    let (decimals, after') : Text × Text := match after with
      | '.' :: rest =>
        let (decimals, after') := digitsIn 10 false rest
        if decimals = [] then ([], after) else (decimals, after')
      | _ => ([], after)
    let significand := Nat.ofDigitChars 10 (whole ++ decimals) 0
    let places := Int.ofNat decimals.length
    match exponentOf? after' with
    | some (exponent, rest) =>
      some (Fraction.ofDecimal false significand (exponent - places), rest)
    | none =>
      if decimals = [] then none
      else some (Fraction.ofDecimal false significand (-places), after')

/-- A whole number at the beginning of a text and what follows it. The base has a mark, and a
decimal number that begins with a zero has no other digits. -/
def wholeOf (text : Text) : Nat × Text :=
  let marked (base : Nat) (rest : Text) : Option (Nat × Text) :=
    let (digits, after) := digitsIn base true rest
    if digits = [] then none else (Text.natural? base digits).map fun n => (n, after)
  let zeros : Nat × Text :=
    let after := (text.drop 1).dropWhile (· = '0')
    (0, after)
  match text with
  | '0' :: mark :: rest =>
    let base := if mark = 'b' ∨ mark = 'B' then 2
      else if mark = 'o' ∨ mark = 'O' then 8
      else if mark = 'x' ∨ mark = 'X' then 16
      else 0
    if base = 0 then zeros else (marked base rest).getD zeros
  | ['0'] => zeros
  | _ =>
    let (digits, after) := digitsIn 10 false text
    (Nat.ofDigitChars 10 digits 0, after)

/-- The character that an escape with hexadecimal digits stands for, and what follows it. -/
def escapedCode? (count : Nat) (text : Text) : Option (Char × Text) := do
  let digits := text.take count
  if digits.length < count then none
  else
    let code ← digits.foldlM (fun n c => (Text.hexValue c).map (n * 16 + ·)) 0
    if Nat.isValidChar code then some (Char.ofNat code, text.drop count) else none

/-- The digits of an octal escape at the beginning of a text. -/
def octalDigits (text : Text) : Text :=
  (text.take 3).takeWhile (isDigitIn 8)

/-- What a letter after a reverse solidus stands for. -/
def escapedLetter? : Char → Option Text
  | '\n' => some []
  | '\\' => some ['\\']
  | '\'' => some ['\'']
  | '"' => some ['"']
  | 'a' => some ['\x07']
  | 'b' => some ['\x08']
  | 'f' => some ['\x0c']
  | 'n' => some ['\n']
  | 'r' => some ['\r']
  | 't' => some ['\t']
  | 'v' => some ['\x0b']
  | _ => none

/-- The text that the inside of a quoted word stands for. The allowance bounds the number of
its characters. -/
def unescaped : Nat → Text → Except Fault Text
  | 0, _ => .error .malformed
  | _, [] => .ok []
  | _, ['\\'] => .error .malformed
  | allowance + 1, '\\' :: c :: rest =>
    let coded (count : Nat) : Except Fault Text :=
      match escapedCode? count rest with
      | some (c, after) => (unescaped allowance after).map (c :: ·)
      | none => .error .malformed
    match escapedLetter? c with
    | some meant => (unescaped allowance rest).map (meant ++ ·)
    | none =>
      if c = 'x' then coded 2
      else if c = 'u' then coded 4
      else if c = 'U' then coded 8
      else if c = 'N' then .error .malformed
      else
        let octal := octalDigits (c :: rest)
        if octal ≠ [] then
          (unescaped allowance ((c :: rest).drop octal.length)).map
            (Char.ofNat (Nat.ofDigitChars 8 octal 0) :: ·)
        else if c.toNat < 0x80 then (unescaped allowance rest).map fun text => '\\' :: c :: text
        else (unescaped allowance rest).map fun text => Text.codeEscape c ++ text
  | allowance + 1, c :: rest => (unescaped allowance rest).map (c :: ·)

/-- The inside of a quoted word up to its closing mark, and what follows the mark. -/
def quotedInside (mark : Char) : Text → Option (Text × Text)
  | [] => none
  | '\\' :: c :: rest =>
    (quotedInside mark rest).map fun (inner, after) => ('\\' :: c :: inner, after)
  | c :: rest =>
    if c = mark then some ([], rest)
    else (quotedInside mark rest).map fun (inner, after) => (c :: inner, after)

/-- Characters of names. -/
def isNameChar (c : Char) : Bool :=
  c == '_' || Text.isAlphanumeric c

/-- The marks of two characters. -/
def doubleMarks : List Text := ["//", "**", "==", "!=", ">=", "<="]

/-- The marks of one character. -/
def singleMarks : List Char :=
  ['+', '-', '/', '*', '%', '~', '[', ']', '(', ')', '\x7b', '\x7d', '>', '<', '=', '.', ':',
    '|', ',', ';']

/-- The word at the beginning of a text without blank space before it. A number directly after
a point is a whole one. -/
def word (afterPoint : Bool) (c : Char) (rest : Text) : Except Fault (Word × Text) :=
  if c = '"' ∨ c = '\'' then
    match quotedInside c rest with
    | some (inner, after) =>
      (unescaped (inner.length + 1) inner).map fun text => (.text text, after)
    | none => .error .malformed
  else if c.isDigit then
    match if afterPoint then none else fractionOf? (c :: rest) with
    | some (value, after) => .ok (.fraction value, after)
    | none =>
      let (value, after) := wholeOf (c :: rest)
      .ok (.whole value, after)
  else if isNameChar c then
    if (Text.digitValue c).isSome then .error .malformed
    else
      let name := (c :: rest).takeWhile isNameChar
      .ok (.name name, (c :: rest).drop name.length)
  else if doubleMarks.contains (c :: rest.take 1) then .ok (.mark (c :: rest.take 1), rest.drop 1)
  else if singleMarks.contains c then .ok (.mark [c], rest)
  else .error .malformed

/-- The brackets that are open after a word, innermost first, when `pending` are open before
it. -/
def pendingAfter (pending : List Char) : Word → Except Fault (List Char)
  | .mark [c] =>
    if c = '(' then .ok (')' :: pending)
    else if c = '[' then .ok (']' :: pending)
    else if c = '\x7b' then .ok ('\x7d' :: pending)
    else if c = ')' ∨ c = ']' ∨ c = '\x7d' then
      match pending with
      | expected :: others => if c = expected then .ok others else .error .malformed
      | [] => .error .malformed
    else .ok pending
  | _ => .ok pending

/-- The words of an output or a tag up to its closing mark, and what follows the mark. -/
def words (opening : Opening) : Nat → List Char → Bool → Text →
    Except Fault (List Word × Text)
  | 0, _, _, _ => .error .malformed
  | allowance + 1, pending, afterPoint, text =>
    match if pending = [] then afterClosing opening text else none with
    | some after => .ok ([], after)
    | none =>
      match text with
      | [] => .error .malformed
      | c :: rest =>
        if isBlank c then words opening allowance pending false rest
        else do
          let (first, after) ← word afterPoint c rest
          let pending ← pendingAfter pending first
          let (others, after) ←
            words opening allowance pending (first = .mark ['.']) after
          return (first :: others, after)

/-! ## Chunks -/

/-- The chunks of a template. -/
def chunks : Nat → Text → Except Fault (List Chunk)
  | 0, _ => .error .malformed
  | allowance + 1, text =>
    let (literal, opening) := splitLiteral text
    match opening with
    | none => .ok [.literal literal]
    | some (opening, after) =>
      let first : Chunk := .literal (literalBefore literal after)
      let inner := afterSign after
      match opening with
      | .comment =>
        match afterComment inner with
        | none => .error .malformed
        | some rest => (chunks allowance rest).map (first :: ·)
      | .output => do
        let (words, rest) ← words .output (inner.length + 1) [] false inner
        let others ← chunks allowance rest
        return first :: .output words :: others
      | .tag =>
        match afterTag? "raw" after with
        | some [] => .ok [first]
        | some raw =>
          match untilRawEnd raw with
          | none => .error .malformed
          | some (literal, ending, rest) =>
            (chunks allowance rest).map (first :: .literal (literalBefore literal ending) :: ·)
        | none => do
          let (words, rest) ← words .tag (inner.length + 1) [] false inner
          let others ← chunks allowance rest
          return first :: .tag words :: others

/-- The text with line feeds for all line ends, and without the last of them if the text
ends in one. -/
def unifyLines : Text → Text
  | [] => []
  | ['\n'] => []
  | ['\r'] => []
  | ['\r', '\n'] => []
  | '\r' :: '\n' :: rest => '\n' :: unifyLines rest
  | '\r' :: rest => '\n' :: unifyLines rest
  | c :: rest => c :: unifyLines rest

/-- The chunks of the text of a template. -/
def Chunk.ofText (source : Text) : Except Fault (List Chunk) :=
  let text := unifyLines source
  chunks (text.length + 1) text

end Daybook.Template
