import Daybook.Entry
import Daybook.Identifier
import Daybook.Storage
import Daybook.Text.Lines

/-!
# Editing ledger files

The edits that a ledger is made of: appending an entry to its file and including that
file, cutting a transaction out, replacing its flag, and opening, closing and deleting
accounts. Every edit reads the file first, so that nothing is written to a file that
cannot be understood.
-/
namespace Daybook

/-- The line that includes a file. -/
def inclusionLine (fileName : Text) : Text :=
  "include " ++ Text.Quoted.encode fileName

/-- A line end where a further line could not begin otherwise. -/
def lineBreakAfter (content : Text) : Text :=
  match content.getLast? with
  | none => []
  | some c => if c = '\n' then [] else ['\n']

/-- Makes sure that the root file has the line that includes a file, and says whether it
had to be added. -/
def ensureIncluded (root : FilePath) (fileName : Text) : Storing Bool := do
  let content ← Storing.look (readIfPresent root)
  let text ← Storing.known ((Text.Utf8.decode content).mapError Failure.undecodable)
  if (Text.lines text).any fun line => Text.trim line = inclusionLine fileName then
    return false
  else
    appendBytes root
      (Text.Utf8.encode (lineBreakAfter text ++ inclusionLine fileName ++ ['\n']))
    return true

/-- The root file of a directory. -/
def Layout.rootPath (layout : Layout) (directory : FilePath) : FilePath :=
  directory.child layout.rootFile

/-- The accounts file of a directory. -/
def Layout.accountsPath (layout : Layout) (directory : FilePath) : FilePath :=
  directory.child layout.accountsFile

/-- Appends an entry to its file and includes that file. -/
def appendEntry (directory : FilePath) (layout : Layout) (entry : RenderedEntry) :
    Storing FilePath := do
  let path := directory.child entry.fileName
  appendBytes path (Text.Utf8.encode entry.text)
  let _ ← ensureIncluded (layout.rootPath directory) entry.fileName
  return path

/-- Appends a transaction to the file that its date belongs to. -/
def addTransaction (directory : FilePath) (layout : Layout) (transaction : Transaction) :
    Storing FilePath := do
  let entry ← Storing.known (transaction.render layout)
  appendEntry directory layout entry

/-- The content of the file of an id and the transaction that the id names. -/
def locate (id : Identifier) : Looking (Bytes × TransactionEntry) := fun disk => do
  let path := FilePath.ofText id.path
  let content ← readBytes id.path path disk
  let page ← Page.read path content
  let entry ← page.find id.offset
  return (content, entry)

/-- Cuts a transaction out of its file. -/
def deleteTransaction (id : Text) : Storing Unit := do
  let id ← Storing.known (Identifier.decode id)
  let (content, entry) ← Storing.look (locate id)
  let rest ← Storing.known ((entry.extent.cutLines content).mapError Failure.outOfRange)
  writeWhole (FilePath.ofText id.path) rest

/-- Replaces the flag of a transaction. Nothing is written when it has that flag already. -/
def setFlag (id flag : Text) : Storing Unit := do
  Storing.known (checkWord "flag" flag)
  let id ← Storing.known (Identifier.decode id)
  let (content, entry) ← Storing.look (locate id)
  if entry.flag = flag then return ()
  else
    let changed ← Storing.known
      ((entry.flagSpan.replace content (Text.Utf8.encode flag)).mapError Failure.outOfRange)
    writeWhole (FilePath.ofText id.path) changed

/-- The content of the accounts file and what it says. Without the file there are no
accounts. -/
def readAccounts (path : FilePath) : Looking (Bytes × Page) := fun disk => do
  let content ← readIfPresent path disk
  let page ← Page.read path content
  return (content, page)

/-- Appends directives to the accounts file, whose content is given, and includes it. -/
def appendToAccounts (directory : FilePath) (layout : Layout) (content : Bytes) (text : Text) :
    Storing Unit := do
  let gap : Bytes := match content.getLast? with
    | none => []
    | some b => if b = 0x0A then [] else [0x0A]
  appendBytes (layout.accountsPath directory) (gap ++ Text.Utf8.encode text)
  let _ ← ensureIncluded (layout.rootPath directory) layout.accountsFile

/-- A directive opens the account of the given name. -/
def Directive.opens (name : Text) : Directive → Bool
  | .opening _ account _ _ _ => account = name
  | _ => false

/-- Opens an account that is not open yet. -/
def addAccount (directory : FilePath) (layout : Layout) (account : Account) : Storing Unit := do
  let text ← Storing.known account.toText
  let (content, page) ← Storing.look (readAccounts (layout.accountsPath directory))
  if page.directives.any (Directive.opens account.name) then throw (.alreadyOpen account.name)
  appendToAccounts directory layout content text

/-- The date of the first directive that closes an account. -/
def closedOn? (name : Text) (directives : List Directive) : Option Text :=
  directives.findSome? fun
    | .closing date account _ _ => if account = name then some date else none
    | _ => none

/-- Closes an account that is open and not closed yet. -/
def closeAccount (directory : FilePath) (layout : Layout) (name date : Text) : Storing Unit := do
  let closing ← Storing.known (closingText name date)
  let (content, page) ← Storing.look (readAccounts (layout.accountsPath directory))
  match closedOn? name page.directives with
  | some date => throw (.alreadyClosed name date)
  | none =>
    if page.directives.any (Directive.opens name) then
      appendToAccounts directory layout content (closing ++ ['\n'])
    else throw (.noAccount name)

/-- The bytes of the directives that open or close an account. -/
def accountSpans (name : Text) (directives : List Directive) : List Span :=
  directives.filterMap fun directive =>
    match directive.account? with
    | some (account, span) => if account = name then some span else none
    | none => none

/-- The content without the lines of several spans. The last span is cut first, so that
the offsets of the others stay right. -/
def cutAll (content : Bytes) (spans : List Span) : Except OutOfRange Bytes :=
  (spans.mergeSort fun a b => decide (b.start ≤ a.start)).foldlM Span.cutLines content

/-- Cuts the directives of an account out of the accounts file. -/
def deleteAccount (directory : FilePath) (layout : Layout) (name : Text) : Storing Unit := do
  let path := layout.accountsPath directory
  let (content, page) ← Storing.look (readAccounts path)
  let spans := accountSpans name page.directives
  if spans = [] then throw (.noAccount name)
  let rest ← Storing.known ((cutAll content spans).mapError Failure.outOfRange)
  writeWhole path rest

end Daybook
