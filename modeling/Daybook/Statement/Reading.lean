import Daybook.Statement.Place

/-!
# Reading statements

Reading goes through a text once, from place to place. It yields the lines of the text, or
the first token or character that has no business where it stands. The end of the text is
a token of its own, which is said to stand where the last token before it stands.
-/
namespace Daybook.Statement

/-- The tokens that end a line. -/
def endsLine (token : Token) : Bool :=
  token.terminal == .newline || token.terminal == .emptyLine

/-- Where a token that ends a line leads. Empty lines before the first statement leave
reading at the beginning of the file. -/
def lineAfter (token : Token) : Place :=
  if token.terminal = .emptyLine then .fileStart else .lineStart

set_option linter.unusedVariables false in
/-- Reads on from a place. `position` counts the characters before the text, and `last` is
the start of the last token before it. -/
def readFrom (place : Place) (position last : Nat) (text : Text) :
    Except Unexpected (List Line) :=
  let gap := Text.stretch Lexeme.isSpace text
  match remaining : text.drop gap with
  | [] =>
    match place.lines? with
    | some lines => .ok lines
    | none => .error (.token ⟨.endOfText, last, []⟩)
  | c :: rest =>
    match found : Lexeme.next place.expected (position + gap) c rest with
    | .error unexpected => .error unexpected
    | .ok token =>
      if endsLine token then
        match place.lines? with
        | some lines =>
          (readFrom (lineAfter token) token.stop token.start
            ((c :: rest).drop token.text.length)).map (lines ++ ·)
        | none => .error (.token token)
      else match place.step token with
        | some next =>
          readFrom next token.stop token.start ((c :: rest).drop token.text.length)
        | none => .error (.token token)
termination_by text.length
decreasing_by
  all_goals
    have nonempty := List.length_pos_iff.mpr (Lexeme.text_ne_nil_of_next found)
    have shorter : (c :: rest).length ≤ text.length := by
      rw [← remaining, List.length_drop]
      omega
    simp only [List.length_drop, List.length_cons] at shorter ⊢
    omega

/-- The lines of a text. -/
def read (text : Text) : Except Unexpected (List Line) :=
  readFrom .fileStart 0 0 text

end Daybook.Statement
