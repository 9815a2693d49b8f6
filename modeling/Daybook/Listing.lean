import Daybook.Entry
import Daybook.Identifier
import Daybook.Storage

/-!
# Listing transactions and accounts

What a ledger directory holds, read from its files anew every time. Transactions come
latest date first, and those of one date in the order of file names and of the file.
Accounts come in the order in which they were first opened.
-/
namespace Daybook

/-- The ledger files of a directory in the order of their names: the files directly in it
with the extension of the layout, the root file excepted. -/
def ledgerFiles (directory : FilePath) (layout : Layout) : Looking (List FilePath) :=
  fun disk => do
    let names ← (disk.list directory).mapError
      (DiskFault.meaning (Failure.unlistable directory.toText))
    let names := names.filter fun name =>
      FilePath.extensionOf name = layout.extension && name ≠ layout.rootFile
    let paths := names.map fun name => directory.join ⟨.here, [name]⟩
    paths.filterM fun path => (disk.holdsFile path).mapError Failure.refused

/-- The record of a posting. -/
def PostingEntry.toRecord (entry : PostingEntry) : Posting :=
  { account := entry.account, amount := entry.amount, currency := entry.currency,
    cost := entry.cost, price := entry.price }

/-- The record of a transaction in the file at a path. -/
def TransactionEntry.toRecord (path : FilePath) (entry : TransactionEntry) : Transaction :=
  { id := some (Identifier.encode ⟨path.toText, entry.dateSpan.start.toNat⟩)
    date := entry.date, flag := entry.flag, payee := entry.payee, narration := entry.narration,
    tags := entry.tags, postings := entry.postings.map PostingEntry.toRecord }

/-- What the file at a path says; it has to be free of errors. -/
def readPage (path : FilePath) : Looking Page := fun disk => do
  let content ← readBytes path.toText path disk
  Page.read path content

/-- The transactions of a directory. -/
def listTransactions (directory : FilePath) (layout : Layout) : Looking (List Transaction) :=
  fun disk => do
    let paths ← ledgerFiles directory layout disk
    let lists ← paths.mapM fun path => do
      let page ← readPage path disk
      return page.transactions.map (TransactionEntry.toRecord path)
    return lists.flatten.mergeSort fun a b => Text.atMost b.date a.date

/-- The accounts after one more opening. Opening an account again replaces its record and
keeps its place. -/
def reopen (accounts : List Account) (account : Account) : List Account :=
  if accounts.any fun held => held.name = account.name then
    accounts.map fun held => if held.name = account.name then account else held
  else accounts ++ [account]

/-- The accounts that directives open, in order. -/
def openedAccounts (directives : List Directive) : List Account :=
  directives.foldl (fun accounts directive =>
    match directive with
    | .opening date name currencies _ _ => reopen accounts { name, openDate := date, currencies }
    | _ => accounts) []

/-- The date of the last directive that closes an account. -/
def lastClosing? (directives : List Directive) (name : Text) : Option Text :=
  directives.reverse.findSome? fun
    | .closing date account _ _ => if account = name then some date else none
    | _ => none

/-- The accounts that directives describe. A closing of an account that is never opened is
passed over. -/
def accountsOf (directives : List Directive) : List Account :=
  (openedAccounts directives).map fun account =>
    { account with closeDate := lastClosing? directives account.name }

/-- The accounts of a directory. Without an accounts file there are none. -/
def listAccounts (directory : FilePath) (layout : Layout) : Looking (List Account) :=
  fun disk => do
    let path := directory.child layout.accountsFile
    if ← isPresent path disk then
      let page ← readPage path disk
      return accountsOf page.directives
    else return []

end Daybook
