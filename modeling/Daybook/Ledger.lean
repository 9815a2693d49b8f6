import Daybook.Editing
import Daybook.Listing
import Daybook.Settings
import Daybook.Verification

/-!
# The ledger of a directory

A ledger is a directory with a layout. This module is what callers use: it lists and
verifies, and it changes transactions and accounts by id and by name. It adds two things to
the edits of files. An id is only accepted if it points at a ledger file directly in the
directory, and a change that takes several steps is undone as a whole if one of them fails.
-/
namespace Daybook

/-- The ledger files of a directory and how they are named. -/
structure Ledger where
  directory : FilePath
  layout : Layout

namespace Ledger

/-- The name of the settings file of a directory. -/
def settingsFile : Text := ".beancounters.yaml"

/-- Opens the ledger of a directory with the settings at the given path, or with those in
the directory. -/
def ofDirectory (directory : FilePath) (settings : Option FilePath) : Looking Ledger :=
  fun disk => do
    let layout ← Layout.load (settings.getD (directory.child settingsFile)) disk
    return { directory, layout }

/-- The file that includes all others. -/
def rootPath (ledger : Ledger) : FilePath :=
  ledger.layout.rootPath ledger.directory

/-- The file that holds the accounts. -/
def accountsPath (ledger : Ledger) : FilePath :=
  ledger.layout.accountsPath ledger.directory

/-- The file of an id, which has to be a ledger file directly in the directory. -/
def checkId (ledger : Ledger) (id : Text) : Looking FilePath := fun disk => do
  let decoded ← Identifier.decode id
  let path := FilePath.ofText decoded.path
  let place ← placeOf path disk
  let directory ← placeOf ledger.directory disk
  if place.dropLast ≠ directory ∨ path.extension ≠ ledger.layout.extension ∨
      path.name = ledger.layout.rootFile then
    .error (.foreignIdentifier id ledger.directory.toText)
  else .ok path

/-- The transactions of the ledger, latest date first. -/
def transactions (ledger : Ledger) : Looking (List Transaction) :=
  listTransactions ledger.directory ledger.layout

/-- The accounts of the ledger. -/
def accounts (ledger : Ledger) : Looking (List Account) :=
  listAccounts ledger.directory ledger.layout

/-- The errors and warnings of the ledger. -/
def verify (ledger : Ledger) : Looking Verdict :=
  Daybook.verify ledger.directory ledger.layout

/-- Adds a transaction and gives the file it is in. -/
def addTransaction (ledger : Ledger) (transaction : Transaction) : Storing FilePath :=
  Daybook.addTransaction ledger.directory ledger.layout transaction

/-- Deletes a transaction. -/
def deleteTransaction (ledger : Ledger) (id : Text) : Storing Unit := do
  let _ ← Storing.look (ledger.checkId id)
  Daybook.deleteTransaction id

/-- Puts another transaction in place of one, and gives the file the new one is in. The new
one is rendered before anything is touched. -/
def updateTransaction (ledger : Ledger) (id : Text) (transaction : Transaction) :
    Storing FilePath := do
  let entry ← Storing.known (transaction.render ledger.layout)
  let path ← Storing.look (ledger.checkId id)
  let target := ledger.directory.child entry.fileName
  protecting [path, target, ledger.rootPath] do
    Daybook.deleteTransaction id
    let _ ← appendEntry ledger.directory ledger.layout entry
  return target

/-- Marks a transaction as cleared. -/
def clearTransaction (ledger : Ledger) (id : Text) : Storing Unit := do
  let _ ← Storing.look (ledger.checkId id)
  setFlag id clearedFlag

/-- Marks a transaction as pending. -/
def unclearTransaction (ledger : Ledger) (id : Text) : Storing Unit := do
  let _ ← Storing.look (ledger.checkId id)
  setFlag id pendingFlag

/-- Opens an account. -/
def addAccount (ledger : Ledger) (account : Account) : Storing Unit :=
  Daybook.addAccount ledger.directory ledger.layout account

/-- Deletes an account. -/
def deleteAccount (ledger : Ledger) (name : Text) : Storing Unit :=
  Daybook.deleteAccount ledger.directory ledger.layout name

/-- Puts another account in place of one. The new one is written out before anything is
touched. -/
def updateAccount (ledger : Ledger) (name : Text) (account : Account) : Storing Unit := do
  let _ ← Storing.known account.toText
  protecting [ledger.accountsPath, ledger.rootPath] do
    ledger.deleteAccount name
    ledger.addAccount account

/-- Closes an account. -/
def closeAccount (ledger : Ledger) (name date : Text) : Storing Unit :=
  Daybook.closeAccount ledger.directory ledger.layout name date

end Ledger

end Daybook
