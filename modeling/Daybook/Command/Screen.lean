import Daybook.Text.Lines
import Daybook.Text.Phrase

/-!
# What a command shows

A command that is read by people shows lines and tables. Their texts are kept as they are.
The markup form is what a screen with colours is given: a coloured line stands between a tag
and the end of the tag, and whatever in a text looks like a tag is escaped.
-/
namespace Daybook.Command

/-- Where a phrase is shown, what is shown of it stands for it. -/
instance shownPhrase : Coe (List Point) (List Char) := ⟨Phrase.shown⟩

/-- Something shown to a reader. -/
inductive Shown where
  /-- A line, coloured or not. -/
  | line (colour : Option Text) (text : Text)
  /-- A table: its title, the headings of its columns, and its rows of cells. -/
  | table (title : Text) (columns : List Text) (rows : List (List Text))
  deriving DecidableEq, Repr

/-- The characters that a tag begins with after its bracket. -/
def beginsTag (c : Char) : Bool :=
  ('a' ≤ c && c ≤ 'z') || c = '#' || c = '/' || c = '@'

/-- A text begins with something that looks like a tag: a bracket, a character that begins
a tag, and a closing bracket before the next opening one. -/
def startsWithTag : Text → Bool
  | '[' :: c :: rest =>
    beginsTag c && (rest.find? fun d => d = '[' || d = ']') = some ']'
  | _ => false

/-- Escapes what looks like a tag, when the given number of backslashes stands before the
text: their number is doubled and increased by one. -/
def escapeTags (backslashes : Nat) : Text → Text
  | [] => []
  | c :: rest =>
    if c = '\\' then c :: escapeTags (backslashes + 1) rest
    else if startsWithTag (c :: rest) then
      List.replicate (backslashes + 1) '\\' ++ c :: escapeTags 0 rest
    else c :: escapeTags 0 rest

/-- A text as markup that shows it. A single backslash at the end is doubled, so that it
escapes nothing that follows. -/
def escaped (text : Text) : Text :=
  let markup := escapeTags 0 text
  match markup.reverse with
  | '\\' :: '\\' :: _ => markup
  | '\\' :: _ => markup ++ ['\\']
  | _ => markup

/-- One row of a table without colours: as many lines as its tallest cell has, with every
cell as wide as its column and two columns between cells. -/
def rowLines (widths : List Nat) (row : List Text) : List Text :=
  let cells := row.map Text.lines
  let height := (cells.map List.length).foldl max 1
  (List.range height).map fun n =>
    List.intercalate "  " ((cells.zip widths).map fun (cell, width) =>
      let line := cell.getD n []
      line ++ List.replicate (width - line.length) ' ')

/-- What is shown where there are no colours. -/
def plainLines : Shown → List Text
  | .line _ text => [text]
  | .table title columns rows =>
    let width (n : Nat) : Nat :=
      (((columns :: rows).flatMap fun row => Text.lines (row.getD n [])).map List.length).foldl
        max 0
    let widths := (List.range columns.length).map width
    title :: (columns :: rows).flatMap (rowLines widths)

/-- A line as markup. A line without a colour is taken as it is. -/
def lineMarkup : Option Text → Text → Text
  | some colour, text => '[' :: colour ++ ']' :: escaped text ++ "[/]"
  | none, text => text

end Daybook.Command
