import Daybook.Page
import Daybook.Template.Rendering

/-!
# Entries

Writing a record as the text of a ledger entry. A transaction is written after a blank
line, an account without one. Words that have to be single words are checked while they
are written; everything else is checked by reading the entry back.
-/
namespace Daybook

/-- Refuses a text that is empty or has a blank character in it. -/
def checkWord (kind value : Text) : Except Failure Unit :=
  if value = [] ∨ value.any Text.isBlank then .error (.notAWord kind value) else .ok ()

/-- The name of the file that a date belongs to. It has to be a plain name with the
extension of ledger files and something before it, and must be none of the two files with
a role of their own. -/
def Layout.fileName (layout : Layout) (date : Date) : Except Failure Text := do
  let rendered ← (Template.render layout.periodFile date).mapError Failure.badTemplate
  let name := Text.trim rendered
  if !layout.extension.isSuffixOf name ∨ name = layout.extension ∨ '/' ∈ name ∨ '\\' ∈ name ∨
      name = layout.rootFile ∨ name = layout.accountsFile then
    .error (.notAFileName name)
  else .ok name

/-- The line of a posting. A currency is only written after an amount. -/
def Posting.toText (posting : Posting) : Except Failure Text := do
  checkWord "account" posting.account
  let amount := if posting.amount = [] then []
    else if posting.currency = [] then [posting.amount]
    else [posting.amount, posting.currency]
  return "  " ++ List.intercalate [' '] (posting.account :: amount)

/-- The columns of the tags of a transaction. -/
def tagColumns (tags : List Text) : Except Failure (List Text) :=
  tags.mapM fun tag => do
    checkWord "tag" tag
    return '#' :: tag

/-- What a transaction is written as, after a blank line. A narration is always written, a payee
only if there is one. -/
def Transaction.toPhrase (transaction : Transaction) : Except Failure Phrase := do
  checkWord "flag" transaction.flag
  let date ← Date.read transaction.date
  let tags ← tagColumns transaction.tags
  let payee := transaction.payee.map Text.Quoted.encodePhrase
  let narration := Text.Quoted.encodePhrase (transaction.narration.getD [])
  let heading := List.intercalate (Phrase.ofText [' '])
    ([date.iso, transaction.flag].map Phrase.ofText ++ payee.toList ++ [narration] ++
      tags.map Phrase.ofText)
  let postings ← transaction.postings.mapM Posting.toText
  return Phrase.ofText ['\n'] ++
    List.intercalate (Phrase.ofText ['\n']) (heading :: postings.map Phrase.ofText) ++
    Phrase.ofText ['\n']

/-- The text of a transaction. A payee or a narration that is no text cannot be written. -/
def Transaction.toText (transaction : Transaction) : Except Failure Text := do
  let phrase ← transaction.toPhrase
  phrase.read

/-- The directive that closes an account, without a line end. -/
def closingText (name date : Text) : Except Failure Text := do
  let date ← Date.read date
  return date.iso ++ " close " ++ name

/-- The directives of an account. -/
def Account.toText (account : Account) : Except Failure Text := do
  checkWord "account" account.name
  let date ← Date.read account.openDate
  account.currencies.forM (checkWord "currency")
  let currencies :=
    if account.currencies = [] then [] else [List.intercalate [','] account.currencies]
  let opening := List.intercalate [' '] ([date.iso, "open", account.name] ++ currencies)
  let closing ← match account.closeDate with
    | none => pure []
    | some date => do
      let closing ← closingText account.name date
      pure [closing]
  return (opening :: closing).flatMap (· ++ ['\n'])

/-- The text of an entry and the name of the file that it belongs to. -/
structure RenderedEntry where
  fileName : Text
  text : Text
  deriving DecidableEq, Repr

/-- The entry of a transaction. Its text has been read back without an error. -/
def Transaction.render (layout : Layout) (transaction : Transaction) :
    Except Failure RenderedEntry := do
  let date ← Date.read transaction.date
  let fileName ← layout.fileName date
  let text ← transaction.toText
  let _ ← Page.read (FilePath.ofText fileName) (Text.Utf8.encode text)
  return { fileName, text }

end Daybook
