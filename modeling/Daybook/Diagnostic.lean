import Daybook.Text.Lines
import Daybook.Text.Numeral

/-!
# Diagnostics

A diagnostic says what is wrong where. Its written form is one line with the place, the
severity and the message, followed by the lines of its context, each set in by four
spaces. A diagnostic without a line number speaks about a file as a whole.
-/
namespace Daybook

/-- How much a diagnostic matters. -/
inductive Severity where
  | error
  | warning
  deriving DecidableEq, Repr

/-- The word for a severity. -/
def Severity.word : Severity → Text
  | .error => "error"
  | .warning => "warning"

/-- A remark about a place in a file. -/
structure Diagnostic where
  severity : Severity
  path : Text
  line : Int
  column : Int
  message : Text
  context : Option Text := none
  deriving DecidableEq, Repr

namespace Diagnostic

/-- The place that a diagnostic speaks about. -/
def place (diagnostic : Diagnostic) : Text :=
  if 0 < diagnostic.line then
    diagnostic.path ++ ":" ++ Text.signedDecimal diagnostic.line ++ ":" ++
      Text.signedDecimal diagnostic.column
  else diagnostic.path

/-- The written form of a diagnostic, without a line end after it. -/
def toText (diagnostic : Diagnostic) : Text :=
  let heading := diagnostic.place ++ ": " ++ diagnostic.severity.word ++ ": " ++ diagnostic.message
  let context := (Text.lines (diagnostic.context.getD [])).map ("    ".toList ++ ·)
  List.intercalate ['\n'] (heading :: context)

/-- The written form of diagnostics, each with a line end after it. -/
def report (diagnostics : List Diagnostic) : Text :=
  diagnostics.flatMap fun diagnostic => diagnostic.toText ++ ['\n']

end Diagnostic

end Daybook
