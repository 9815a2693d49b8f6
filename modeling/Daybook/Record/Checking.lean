import Daybook.Record
import Daybook.Value.Display

/-!
# Checking records

A record is read from an untyped value field by field. Nothing is converted: a text has to
be a text. Unknown fields are ignored, and every field that is wrong is reported, in the
order of the fields, so that a caller sees all that is wrong at once.
-/
namespace Daybook

/-- A step from a value to a part of it. -/
inductive Step where
  | field (name : Text)
  | item (index : Nat)
  deriving DecidableEq, Repr

/-- What is wrong with a value. -/
inductive Problem where
  | missing
  | notAText
  /-- The value is a byte string, and not the encoding of a text. -/
  | notAnEncoding
  | notAList
  /-- The value is no record, and a record of the named kind is asked for. -/
  | notARecord (kind : Text)
  deriving DecidableEq, Repr

/-- What was found where something else is asked for: what it is called, and its display
form. -/
structure Found where
  kind : Text
  form : Text
  deriving DecidableEq, Repr

/-- A value as what was found. -/
def Value.found (value : Value) : Found :=
  ⟨value.kind, value.display⟩

/-- A problem, the way to the value that has it, and what was found there. Where a field is
missing that is the record without it. -/
structure Issue where
  location : List Step
  problem : Problem
  found : Found
  deriving DecidableEq, Repr

/-- The short name of a problem. -/
def Problem.code : Problem → Text
  | .missing => "missing"
  | .notAText => "string_type"
  | .notAnEncoding => "string_unicode"
  | .notAList => "list_type"
  | .notARecord _ => "model_type"

/-- The problem in words. -/
def Problem.message : Problem → Text
  | .missing => "Field required"
  | .notAText => "Input should be a valid string"
  | .notAnEncoding =>
    "Input should be a valid string, unable to parse raw data as a unicode string"
  | .notAList => "Input should be a valid list"
  | .notARecord kind => "Input should be a valid dictionary or instance of " ++ kind

/-- What checking yields: a result, or all that is wrong. -/
abbrev Checked (α : Type) := Except (List Issue) α

namespace Checked

/-- What is wrong. -/
def issues {α : Type} : Checked α → List Issue
  | .ok _ => []
  | .error issues => issues

/-- The result of a part, whose issues lie one step further away. -/
def under {α : Type} (step : Step) (checked : Checked α) : Checked α :=
  checked.mapError fun issues => issues.map fun issue =>
    { issue with location := step :: issue.location }

/-- A single problem with what was found. -/
def problem {α : Type} (problem : Problem) (found : Found) : Checked α :=
  .error [⟨[], problem, found⟩]

/-- A text. -/
def text : Value → Checked Text
  | .text value => .ok value
  | other => problem .notAText other.found

/-- A text, or nothing at all. -/
def textOrNothing : Value → Checked (Option Text)
  | .nothing => .ok none
  | value => (text value).map some

/-- The items of a list from number `index` on, each checked by `item`. -/
def itemsFrom {α : Type} (item : Value → Checked α) (index : Nat) :
    List Value → Checked (List α)
  | [] => .ok []
  | value :: rest =>
    let first := (item value).under (.item index)
    let others := itemsFrom item (index + 1) rest
    match first, others with
    | .ok first, .ok others => .ok (first :: others)
    | _, _ => .error (first.issues ++ others.issues)

/-- A list whose items are checked by `item`. -/
def list {α : Type} (item : Value → Checked α) : Value → Checked (List α)
  | .list items => itemsFrom item 0 items
  | other => problem .notAList other.found

/-- A field that has to be there. -/
def required {α : Type} (fields : List (Text × Value)) (name : Text)
    (check : Value → Checked α) : Checked α :=
  Checked.under (.field name) <|
    match Value.field? name fields with
    | some value => check value
    | none => problem .missing (Value.record fields).found

/-- A field that may be left out. -/
def optional {α : Type} (fields : List (Text × Value)) (name : Text)
    (check : Value → Checked α) (otherwise : α) : Checked α :=
  Checked.under (.field name) <|
    match Value.field? name fields with
    | some value => check value
    | none => .ok otherwise

end Checked

open Checked

/-- The posting that a value describes. -/
def Posting.ofValue : Value → Checked Posting
  | .record fields =>
    let account := required fields "account" text
    let amount := optional fields "amount" text []
    let currency := optional fields "currency" text []
    let cost := optional fields "cost" textOrNothing none
    let price := optional fields "price" textOrNothing none
    match account, amount, currency, cost, price with
    | .ok account, .ok amount, .ok currency, .ok cost, .ok price =>
      .ok { account, amount, currency, cost, price }
    | _, _, _, _, _ =>
      .error (account.issues ++ amount.issues ++ currency.issues ++ cost.issues ++ price.issues)
  | other => problem (.notARecord "Posting") other.found

/-- The transaction that a value describes. -/
def Transaction.ofValue : Value → Checked Transaction
  | .record fields =>
    let id := optional fields "id" textOrNothing none
    let date := required fields "date" text
    let flag := optional fields "flag" text clearedFlag
    let payee := optional fields "payee" textOrNothing none
    let narration := optional fields "narration" textOrNothing none
    let tags := optional fields "tags" (list text) []
    let postings := optional fields "postings" (list Posting.ofValue) []
    match id, date, flag, payee, narration, tags, postings with
    | .ok id, .ok date, .ok flag, .ok payee, .ok narration, .ok tags, .ok postings =>
      .ok { id, date, flag, payee := payee.map .ofText, narration := narration.map .ofText, tags,
            postings }
    | _, _, _, _, _, _, _ =>
      .error (id.issues ++ date.issues ++ flag.issues ++ payee.issues ++ narration.issues ++
        tags.issues ++ postings.issues)
  | other => problem (.notARecord "Transaction") other.found

/-- The account that a value describes. -/
def Account.ofValue : Value → Checked Account
  | .record fields =>
    let name := required fields "name" text
    let openDate := required fields "open_date" text
    let currencies := optional fields "currencies" (list text) []
    let closeDate := optional fields "close_date" textOrNothing none
    match name, openDate, currencies, closeDate with
    | .ok name, .ok openDate, .ok currencies, .ok closeDate =>
      .ok { name, openDate, currencies, closeDate }
    | _, _, _, _ =>
      .error (name.issues ++ openDate.issues ++ currencies.issues ++ closeDate.issues)
  | other => problem (.notARecord "Account") other.found

/-- The layout of which `field?` gives the fields that are there. What is left out is as
usual. -/
def Layout.ofFields (field? : Text → Option (Checked Text)) : Checked Layout :=
  let field (name usual : Text) : Checked Text :=
    Checked.under (.field name) ((field? name).getD (.ok usual))
  let usual : Layout := {}
  let rootFile := field "root_file" usual.rootFile
  let accountsFile := field "accounts_file" usual.accountsFile
  let extension := field "extension" usual.extension
  let periodFile := field "period_file" usual.periodFile
  match rootFile, accountsFile, extension, periodFile with
  | .ok rootFile, .ok accountsFile, .ok extension, .ok periodFile =>
    .ok { rootFile, accountsFile, extension, periodFile }
  | _, _, _, _ =>
    .error (rootFile.issues ++ accountsFile.issues ++ extension.issues ++ periodFile.issues)

/-- What a layout is called. -/
def Layout.kind : Text := "LedgerConfig"

/-- The layout that a value describes. -/
def Layout.ofValue : Value → Checked Layout
  | .record fields => Layout.ofFields fun name => (Value.field? name fields).map text
  | other => problem (.notARecord Layout.kind) other.found

end Daybook
