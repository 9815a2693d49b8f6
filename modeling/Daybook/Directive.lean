import Daybook.Span
import Daybook.Text.Phrase

/-!
# Directives

What a ledger file says, as far as this library looks at it: transactions, openings and
closings of accounts, and inclusions of other files. Every directive knows the bytes it
stands on, so that it can be cut out or changed in place.
-/
namespace Daybook

/-- A posting of a transaction as it stands in a file. Number, cost and price keep the
characters of the file. -/
structure PostingEntry where
  account : Text
  amount : Text
  currency : Text
  cost : Option Text
  price : Option Text
  accountSpan : Span
  /-- The bytes of the number and the currency. -/
  amountSpan : Option Span
  /-- The bytes from the account to the end of the posting. -/
  span : Span
  deriving DecidableEq, Repr

/-- A transaction as it stands in a file. Payee and narration are what their quotations stand for. -/
structure TransactionEntry where
  date : Text
  flag : Text
  payee : Option Phrase
  narration : Option Phrase
  tags : List Text
  postings : List PostingEntry
  dateSpan : Span
  flagSpan : Span
  narrationSpan : Option Span
  /-- The bytes from the date to the end of the last line that belongs to it. -/
  span : Span
  deriving DecidableEq, Repr

/-- A directive. -/
inductive Directive where
  | transaction (entry : TransactionEntry)
  | opening (date account : Text) (currencies : List Text) (dateSpan span : Span)
  | closing (date account : Text) (dateSpan span : Span)
  | inclusion (path : Phrase) (span : Span)
  deriving DecidableEq, Repr

/-- The ends of all parts of a posting. -/
def PostingEntry.ends (posting : PostingEntry) : List Int :=
  [posting.accountSpan.stop] ++ (posting.amountSpan.map Span.stop).toList ++ [posting.span.stop]

/-- The bytes of a transaction, from the start of its date to the furthest end of any of
its parts. -/
def TransactionEntry.extent (entry : TransactionEntry) : Span :=
  let ends := [entry.span.stop] ++ (entry.narrationSpan.map Span.stop).toList ++
    entry.postings.flatMap PostingEntry.ends
  ⟨entry.dateSpan.start, ends.foldl max entry.dateSpan.stop⟩

namespace Directive

/-- The transaction that a directive is, if it is one. -/
def transaction? : Directive → Option TransactionEntry
  | transaction entry => some entry
  | _ => none

/-- The path that a directive includes, if it is an inclusion. -/
def inclusion? : Directive → Option Phrase
  | inclusion path _ => some path
  | _ => none

/-- The account that a directive opens or closes, with its bytes. -/
def account? : Directive → Option (Text × Span)
  | opening _ account _ _ span => some (account, span)
  | closing _ account _ span => some (account, span)
  | _ => none

end Directive

end Daybook
