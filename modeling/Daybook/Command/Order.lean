import Daybook.Command.Screen
import Daybook.Ledger
import Daybook.Record.Describing
import Daybook.Value.Indented

/-!
# Orders to a ledger

An order is a command that has been understood: one operation on a ledger with everything it
needs. Carrying it out gives a reply, which holds what is shown and the exit code. Orders that
change the ledger show nothing.
-/
namespace Daybook.Command

/-- One operation on a ledger. -/
inductive Order where
  | listTransactions (json : Bool)
  | addTransaction (transaction : Transaction)
  | updateTransaction (id : Text) (transaction : Transaction)
  | deleteTransaction (id : Text)
  | clearTransaction (id : Text)
  | unclearTransaction (id : Text)
  | listAccounts (json : Bool)
  | addAccount (account : Account)
  | updateAccount (name : Text) (account : Account)
  | deleteAccount (name : Text)
  | closeAccount (name date : Text)
  | verify (json : Bool)
  deriving DecidableEq, Repr

/-- What a command line gives back. -/
structure Reply where
  exitCode : Nat := 0
  /-- What is written for other programs to read. -/
  output : Text := []
  /-- What is written as a complaint. -/
  complaint : Text := []
  /-- What is shown to a reader. -/
  shown : List Shown := []
  deriving DecidableEq, Repr

/-- The value that describes a verdict. -/
def verdictValue (verdict : Verdict) : Value :=
  .record [("errors", .ofTexts verdict.errors), ("warnings", .ofTexts verdict.warnings)]

/-- A value as output. -/
def asOutput (value : Value) : Text :=
  value.indented ++ ['\n']

/-- The postings of a transaction in a cell, each in a line and without what it leaves out. -/
def postingsCell (postings : List Posting) : Text :=
  let line (posting : Posting) :=
    List.intercalate [' '] ([posting.account, posting.amount, posting.currency].filter (· ≠ []))
  List.intercalate ['\n'] (postings.map line)

/-- Refuses transactions that cannot be shown, because a payee or a narration is no text. The first
phrase that is none is the reason. -/
def checkShown (transactions : List Transaction) : Except Failure Unit :=
  (transactions.flatMap Transaction.phrases).forM fun phrase => do
    let _ ← phrase.read

/-- The table of transactions. -/
def transactionTable (transactions : List Transaction) : Shown :=
  .table "Transactions" ["Id", "Date", "Flag", "Payee", "Narration", "Postings"]
    (transactions.map fun transaction =>
      [transaction.id.getD [], transaction.date, transaction.flag, transaction.payee.getD [],
        transaction.narration.getD [], postingsCell transaction.postings])

/-- The table of accounts. -/
def accountTable (accounts : List Account) : Shown :=
  .table "Accounts" ["Name", "Opened", "Closed", "Currencies"]
    (accounts.map fun account =>
      [account.name, account.openDate, account.closeDate.getD [],
        List.intercalate [','] account.currencies])

/-- The lines of a verdict: its errors, its warnings, and how many there are. -/
def verdictLines (verdict : Verdict) : List Shown :=
  let count := Text.decimal verdict.errors.length ++ " error lines, " ++
    Text.decimal verdict.warnings.length ++ " warning lines"
  verdict.errors.map (.line (some "red")) ++ verdict.warnings.map (.line (some "yellow")) ++
    [.line none count]

namespace Order

/-- Carries out an order. -/
def perform (ledger : Ledger) : Order → Storing Reply
  | listTransactions json => do
    let transactions ← Storing.look ledger.transactions
    Storing.known (checkShown transactions)
    return if json then { output := asOutput (.list (transactions.map Transaction.toValue)) }
      else { shown := [transactionTable transactions] }
  | addTransaction transaction => do
    let _ ← ledger.addTransaction transaction
    return {}
  | updateTransaction id transaction => do
    let _ ← ledger.updateTransaction id transaction
    return {}
  | deleteTransaction id => do
    ledger.deleteTransaction id
    return {}
  | clearTransaction id => do
    ledger.clearTransaction id
    return {}
  | unclearTransaction id => do
    ledger.unclearTransaction id
    return {}
  | listAccounts json => do
    let accounts ← Storing.look ledger.accounts
    return if json then { output := asOutput (.list (accounts.map Account.toValue)) }
      else { shown := [accountTable accounts] }
  | addAccount account => do
    ledger.addAccount account
    return {}
  | updateAccount name account => do
    ledger.updateAccount name account
    return {}
  | deleteAccount name => do
    ledger.deleteAccount name
    return {}
  | closeAccount name date => do
    ledger.closeAccount name date
    return {}
  | verify json => do
    let verdict ← Storing.look ledger.verify
    let exitCode := if verdict.errors.isEmpty then 0 else 1
    return if json then { exitCode, output := asOutput (verdictValue verdict) }
      else { exitCode, shown := verdictLines verdict }

end Order

end Daybook.Command
