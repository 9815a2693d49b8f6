import Daybook.Directive.Collecting
import Daybook.Statement.Reading

/-!
# Pages

A page is one ledger file as it has been understood: its directives, or the one error that
makes it unreadable, and the warnings. Bytes that are no text and text that is no sequence
of statements both leave a page without directives and with exactly one error.

A file can fail outright in one way only: it is readable and one of its transactions has no
flag.
-/
namespace Daybook

/-- What a ledger file says. -/
structure Page where
  path : Text
  directives : List Directive
  errors : List Diagnostic
  warnings : List Diagnostic

namespace Page

/-- The width of a text on a screen with tab stops at every eighth column. A carriage return
counts and begins the columns anew. -/
def widthFrom (column : Nat) : Text → Nat
  | [] => 0
  | c :: rest =>
    if c = '\t' then
      let step := 8 - column % 8
      step + widthFrom (column + step) rest
    else 1 + widthFrom (if c = '\n' ∨ c = '\r' then 0 else column + 1) rest

/-- The surroundings of a position: up to forty characters on either side, as far as they
are on its line, and a caret below the position. -/
def surroundings (text : Text) (position : Nat) : Text :=
  let left := ((text.take position).drop (position - 40)).reverse.takeWhile (· ≠ '\n') |>.reverse
  let right := ((text.drop position).take 40).takeWhile (· ≠ '\n')
  left ++ right ++ '\n' :: List.replicate (widthFrom 0 left) ' ' ++ ['^']

/-- The position of what is out of place. -/
def positionOf : Unexpected → Nat
  | .token token => token.start
  | .character _ position => position

/-- What is out of place, in words. -/
def complaint (line column : Nat) : Unexpected → Text
  | .token token =>
    "Unexpected token Token(" ++ Text.display token.terminal.name ++ ", " ++
      Text.display token.text ++ ") at line " ++ Text.decimal line ++ ", column " ++
      Text.decimal column ++ "."
  | .character c _ =>
    "No terminal matches '" ++ [c] ++ "' in the current parser context, at line " ++
      Text.decimal line ++ " col " ++ Text.decimal column

/-- The diagnostic for what is out of place. Of a complaint that a strange character breaks
into several lines the first is kept. -/
def diagnose (source : Source) (unexpected : Unexpected) : Diagnostic :=
  let position := positionOf unexpected
  let line := source.lineAt position
  let column := source.columnAt position
  { severity := .error
    path := source.path
    line
    column
    message := (Text.lines (Text.trim (complaint line column unexpected))).headD []
    context := some (surroundings source.text position) }

/-- The diagnostic for bytes that are no text. -/
def diagnoseBytes (path : Text) (content : Bytes) (malformed : Text.Utf8.Malformed) :
    Diagnostic :=
  { severity := .error
    path
    line := (content.take malformed.start).count 0x0A + 1
    column := 0
    message := "Invalid UTF-8 content: " ++ malformed.flaw.message }

/-- A page with a single error. -/
def failed (path : Text) (error : Diagnostic) : Page :=
  { path, directives := [], errors := [error], warnings := [] }

/-- The page of a text. A text of blank characters says nothing. -/
def ofText (path text : Text) : Except Failure Page :=
  let source := Source.ofText path text
  if text.all Text.isBlank then .ok { path, directives := [], errors := [], warnings := [] }
  else match Statement.read text with
    | .error unexpected => .ok (failed path (diagnose source unexpected))
    | .ok lines => do
      let collected ← collect source lines
      return { path, directives := collected.directives, errors := [],
               warnings := collected.warnings }

/-- The page of the content of a file. -/
def ofBytes (path : FilePath) (content : Bytes) : Except Failure Page :=
  match Text.Utf8.decode content with
  | .error malformed => .ok (failed path.toText (diagnoseBytes path.toText content malformed))
  | .ok text => ofText path.toText text

/-- The page itself if it has no error, and else its first error as a failure. -/
def sound (page : Page) : Except Failure Page :=
  match page.errors with
  | [] => .ok page
  | error :: _ => .error (.unparsable page.path error)

/-- The page of the content of a file that has to be free of errors. -/
def read (path : FilePath) (content : Bytes) : Except Failure Page := do
  let page ← ofBytes path content
  page.sound

/-- The transactions of a page in their order. -/
def transactions (page : Page) : List TransactionEntry :=
  page.directives.filterMap Directive.transaction?

/-- The paths that a page includes, in their order. -/
def inclusions (page : Page) : List Phrase :=
  page.directives.filterMap Directive.inclusion?

/-- The transaction that starts at an offset. -/
def find (page : Page) (offset : Int) : Except Failure TransactionEntry :=
  match page.transactions.find? fun entry => entry.dateSpan.start = offset with
  | some entry => .ok entry
  | none => .error (.noTransaction page.path offset)

end Page

end Daybook
