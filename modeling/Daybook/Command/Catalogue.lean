import Daybook.Command.Arguments
import Daybook.Command.Menu
import Daybook.Command.Order
import Daybook.Text.Alphanumeric

/-!
# The commands

This module lists the commands, says which order the arguments of each one give, and reads
whole command lines. The program has two menus of its own, one for transactions and one for
accounts, and one command beside them.

The options before the first command say which directory is meant and which settings hold.
-/
namespace Daybook.Command

/-- What the surroundings of the program say in place of its options. -/
structure Surroundings where
  directory : Option Text := none
  logLevel : Option Text := none
  deriving DecidableEq, Repr

/-- A command that gives an order. -/
structure MenuItem where
  name : Text
  options : List CommandOption := []
  operands : Operands := .nothing
  order : Arguments → Order

/-- What can be called from the main menu: a menu of its own, or a single command. -/
inductive Section where
  | menu (name : Text) (items : List MenuItem)
  | single (item : MenuItem)

/-- A whole command line that has been understood. -/
structure Invocation where
  directory : Text
  settings : Option Text
  order : Order
  deriving DecidableEq, Repr

/-! ## Options and what they say -/

/-- The option that asks for output instead of a table. -/
def jsonOption : CommandOption := { long := "--json", arity := .switch }

/-- The options that describe a transaction. -/
def transactionOptions : List CommandOption :=
  [{ long := "--date", required := true },
    { long := "--flag", fallback := some clearedFlag },
    { long := "--payee" },
    { long := "--narration" },
    { long := "--tag", short := some 't', arity := .many },
    { long := "--posting", short := some 'p', arity := .many, accepts := .posting }]

/-- The options that describe an account. -/
def accountOptions : List CommandOption :=
  [{ long := "--open-date", required := true }, { long := "--currency", arity := .many }]

/-- The transaction that the options describe. -/
def Arguments.transaction (arguments : Arguments) : Transaction where
  date := (arguments.last? "--date").getD []
  flag := (arguments.last? "--flag").getD clearedFlag
  payee := (arguments.last? "--payee").map .ofText
  narration := (arguments.last? "--narration").map .ofText
  tags := arguments.all "--tag"
  postings := (arguments.all "--posting").filterMap posting?

/-- The account of the given name that the options describe. -/
def Arguments.account (name : Text) (arguments : Arguments) : Account where
  name
  openDate := (arguments.last? "--open-date").getD []
  currencies := arguments.all "--currency"
  closeDate := arguments.last? "--close-date"

/-- The new name of an account that is updated: the one given, unless it is empty, and else
the old one. -/
def Arguments.newName (arguments : Arguments) : Text :=
  match arguments.last? "--name" with
  | some (c :: rest) => c :: rest
  | _ => arguments.operand

/-! ## The menus -/

/-- The commands on transactions. -/
def transactionItems : List MenuItem :=
  [{ name := "list", options := [jsonOption]
     order := fun arguments => .listTransactions (arguments.has "--json") },
    { name := "add", options := transactionOptions
      order := fun arguments => .addTransaction arguments.transaction },
    { name := "update", options := transactionOptions, operands := .one "TXN_ID"
      order := fun arguments => .updateTransaction arguments.operand arguments.transaction },
    { name := "delete", operands := .one "TXN_ID"
      order := fun arguments => .deleteTransaction arguments.operand },
    { name := "clear", operands := .one "TXN_ID"
      order := fun arguments => .clearTransaction arguments.operand },
    { name := "unclear", operands := .one "TXN_ID"
      order := fun arguments => .unclearTransaction arguments.operand }]

/-- The commands on accounts. -/
def accountItems : List MenuItem :=
  [{ name := "list", options := [jsonOption]
     order := fun arguments => .listAccounts (arguments.has "--json") },
    { name := "add", options := accountOptions, operands := .one "NAME"
      order := fun arguments => .addAccount (arguments.account arguments.operand) },
    { name := "update"
      options := { long := "--name" } :: accountOptions ++ [{ long := "--close-date" }]
      operands := .one "NAME"
      order := fun arguments =>
        .updateAccount arguments.operand (arguments.account arguments.newName) },
    { name := "delete", operands := .one "NAME"
      order := fun arguments => .deleteAccount arguments.operand },
    { name := "close", options := [{ long := "--date", required := true }]
      operands := .one "NAME"
      order := fun arguments =>
        .closeAccount arguments.operand ((arguments.last? "--date").getD []) }]

/-- The main menu. -/
def sections : List Section :=
  [.menu "txn" transactionItems, .menu "account" accountItems,
    .single
      { name := "verify", options := [jsonOption]
        order := fun arguments => .verify (arguments.has "--json") }]

/-- The name of a section. -/
def Section.name : Section → Text
  | .menu name _ => name
  | .single item => item.name

/-! ## Reading command lines -/

/-- The words that may stand for a level of detail of the log. -/
def logLevels : List Text :=
  ["verbose", "debug", "info", "warning", "error", "fatal"]

/-- How the program itself is called. -/
def mainSignature (surroundings : Surroundings) : Signature where
  path := "cli"
  options :=
    [{ long := "--data-dir", short := some 'd', accepts := .folderPath
       fallback := some (surroundings.directory.getD "data") },
      { long := "--config", short := some 'c', accepts := .filePath },
      { long := "--log-level", short := some 'l', accepts := .oneOf logLevels
        fallback := some (surroundings.logLevel.getD "INFO") },
      Signature.helpOption]
  operands := .command

/-- How a menu is called. -/
def menuSignature (path : Text) : Signature :=
  { path, options := [Signature.helpOption], operands := .command }

/-- How a command is called from a menu. -/
def MenuItem.signature (path : Text) (item : MenuItem) : Signature where
  path := path ++ ' ' :: item.name
  options := item.options ++ [Signature.helpOption]
  operands := item.operands

/-- The order that a command and the words after it give. -/
def MenuItem.read (path : Text) (disk : Disk) (words : List Text) (item : MenuItem) :
    Except Diversion Order := do
  let arguments ← (item.signature path).read disk words
  return item.order arguments

/-- The member of a menu that the first word chooses, and the words after it. A word that
chooses nothing and begins like an option, with anything but a letter or a digit, is first
read as one. -/
def select {α : Type} (signature : Signature) (disk : Disk) (name : α → Text)
    (members : List α) : List Text → Except Diversion (α × List Text)
  | [] => .error (.misuse signature .missingCommand)
  | word :: rest =>
    let names := members.map name
    let unknown : Except Diversion (α × List Text) := do
      if word.head?.any fun c => !Text.isAlphanumeric c then
        let _ ← signature.read disk (word :: rest)
      throw (.misuse signature (.noSuchCommand word (Text.suggestions names word)))
    match choose names word with
    | .chosen chosen =>
      match members.find? fun member => name member = chosen with
      | some member => .ok (member, rest)
      | none => unknown
    | .ambiguous word candidates =>
      .error (.misuse signature (.ambiguousCommand word candidates))
    | .unknown => unknown

/-- The order that a section of the main menu and the words after it give. -/
def Section.read (path : Text) (disk : Disk) (words : List Text) :
    Section → Except Diversion Order
  | .single item => item.read path disk words
  | .menu name items => do
    let path := path ++ ' ' :: name
    let signature := menuSignature path
    let arguments ← signature.read disk words
    let (item, rest) ← select signature disk MenuItem.name items arguments.operands
    item.read path disk rest

/-- Reads a whole command line. -/
def Invocation.read (surroundings : Surroundings) (disk : Disk) (words : List Text) :
    Except Diversion Invocation := do
  let signature := mainSignature surroundings
  let arguments ← signature.read disk words
  let (chosen, rest) ← select signature disk Section.name sections arguments.operands
  let order ← chosen.read signature.path disk rest
  return {
    directory := (arguments.last? "--data-dir").getD (surroundings.directory.getD "data")
    settings := arguments.last? "--config"
    order }

end Daybook.Command
