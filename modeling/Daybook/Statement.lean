import Daybook.Lexeme.Expected

/-!
# Statements

A ledger file is a sequence of statements, each on a line of its own (a quoted text may
make that line several lines long). A statement keeps the tokens that its meaning depends
on. Blank space, brackets and most keywords are not among them, and so they never extend a
statement: the end of a statement is the end of the last token it keeps, or of the comment
after it.

The heading of a transaction and its postings and metadata are statements of their own.
What belongs together is decided by `Daybook.Directive.Collecting`.
-/
namespace Daybook

/-- The line that begins a transaction. A single text is the narration. -/
structure Heading where
  date : Token
  flag : Option Token := none
  payee : Option Token := none
  narration : Option Token := none
  /-- The tags and links in their order. -/
  marks : List Token := []
  /-- The end of the last token. -/
  stop : Nat
  deriving DecidableEq, Repr

/-- A posting line. -/
structure PostingLine where
  /-- The flag if there is one, else the account. -/
  first : Token
  account : Token
  /-- The currency of the amount; a posting without amount has none. -/
  currency : Option Token := none
  hasCost : Bool := false
  hasPrice : Bool := false
  /-- The end of the last token that is kept. -/
  stop : Nat
  deriving DecidableEq, Repr

/-- A statement. Those without data are read and have no further meaning. -/
inductive Statement where
  /-- A comment or a section header on a line of its own. -/
  | remark
  | transaction (heading : Heading)
  | opening (date account : Token) (currencies : List Token) (stop : Nat)
  | closing (date account : Token)
  /-- Any other directive with a date. -/
  | otherDated
  | posting (line : PostingLine)
  | metadata (key : Token) (stop : Nat)
  | inclusion (path : Token)
  /-- Any other directive without a date. -/
  | otherUndated
  deriving DecidableEq, Repr

/-- A statement with the comment after it. -/
structure Line where
  statement : Statement
  comment : Option Token := none
  deriving DecidableEq, Repr

/-- The end of a line whose statement ends at `stop`. -/
def Line.stop (line : Line) (stop : Nat) : Nat :=
  match line.comment with
  | some comment => comment.stop
  | none => stop

end Daybook
