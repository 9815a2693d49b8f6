import Daybook.Text.Phrase

/-!
# Records

What callers hand in and get back: transactions with their postings, accounts, and the
layout of a ledger directory. All dates are texts here; they are checked when something is
written.
-/
namespace Daybook

/-- A posting: an account, and an amount and a currency that may both be left out. Cost and
price are reported for what is listed and never written. -/
structure Posting where
  account : Text
  amount : Text := []
  currency : Text := []
  cost : Option Text := none
  price : Option Text := none
  deriving DecidableEq, Repr

/-- A transaction. Only a listed one has an id. Payee and narration are phrases, since those of a
listed transaction need not be texts. -/
structure Transaction where
  id : Option Text := none
  date : Text
  flag : Text := ['*']
  payee : Option Phrase := none
  narration : Option Phrase := none
  tags : List Text := []
  postings : List Posting := []
  deriving DecidableEq, Repr

/-- The payee and the narration of a transaction, as far as it has them. -/
def Transaction.phrases (transaction : Transaction) : List Phrase :=
  transaction.payee.toList ++ transaction.narration.toList

/-- Whatever a transaction says in quotation marks is a text. -/
def Transaction.IsText (transaction : Transaction) : Prop :=
  ∀ phrase ∈ transaction.phrases, phrase.IsText

instance (transaction : Transaction) : Decidable transaction.IsText :=
  inferInstanceAs (Decidable (∀ phrase ∈ transaction.phrases, phrase.IsText))

/-- An account with the days of its opening and its closing. Without currencies it takes
any. -/
structure Account where
  name : Text
  openDate : Text
  currencies : List Text := []
  closeDate : Option Text := none
  deriving DecidableEq, Repr

/-- How the files of a ledger directory are named. The root file includes all others, the
accounts file holds the accounts, and the template gives the file that a date belongs to. -/
structure Layout where
  rootFile : Text := "main.bean"
  accountsFile : Text := "accounts.bean"
  extension : Text := ".bean"
  periodFile : Text :=
    "\x7b\x7b \"%04d\" | format(date.year) \x7d\x7d-\x7b\x7b \"%02d\" | format(date.month) \x7d\x7d.bean"
  deriving DecidableEq, Repr

/-- The flag of a cleared transaction. -/
def clearedFlag : Text := "*"

/-- The flag of a pending transaction. -/
def pendingFlag : Text := "!"

end Daybook
