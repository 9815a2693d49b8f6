import Daybook.Text.Display
import Daybook.Text.Likeness

/-!
# The signatures of commands, and their misuse

A signature says which options a command takes and what it takes beside them. A word of the
command line that does not fit is a misuse, and so is one that is missing. Each misuse has one
wording, and the report of most of them begins with how the command is used.
-/
namespace Daybook.Command

/-- How often an option may be given, and whether it takes a value. -/
inductive Arity where
  /-- It takes no value. -/
  | switch
  /-- It takes a value, and the last one given counts. -/
  | single
  /-- It takes a value, and all values given count. -/
  | many
  deriving DecidableEq, Repr

/-- What the value of an option has to be. -/
inductive Accepts where
  | anything
  /-- A path at which there is no plain file. -/
  | folderPath
  /-- A path at which there is no folder. -/
  | filePath
  /-- One of the given words, in capital letters or small ones. -/
  | oneOf (choices : List Text)
  /-- An account, and perhaps an amount and a currency. -/
  | posting
  deriving DecidableEq, Repr

/-- An option of a command. One with a short name takes a value. -/
structure CommandOption where
  long : Text
  short : Option Char := none
  arity : Arity := .single
  accepts : Accepts := .anything
  required : Bool := false
  /-- The value that counts when none is given. -/
  fallback : Option Text := none
  deriving DecidableEq, Repr

/-- What a command takes beside its options. -/
inductive Operands where
  | nothing
  /-- One word, which stands for what the name says. -/
  | one (name : Text)
  /-- A command and what that takes. -/
  | command
  deriving DecidableEq, Repr

/-- How a command is called. -/
structure Signature where
  /-- The words that lead to the command. -/
  path : Text
  options : List CommandOption
  operands : Operands
  deriving DecidableEq, Repr

/-- A way of misusing a command. -/
inductive Misuse where
  /-- A command that leads on to others stands alone. -/
  | nothingAsked
  | missingCommand
  | noSuchCommand (word : Text) (suggestions : List Text)
  | ambiguousCommand (word : Text) (candidates : List Text)
  | noSuchOption (name : Text) (suggestions : List Text)
  | takesNoValue (name : Text)
  | needsValue (name : Text)
  | invalidValue (option : CommandOption) (objection : Text)
  | missingOption (option : CommandOption)
  | missingOperand (name : Text)
  | unexpectedOperands (words : List Text)
  deriving DecidableEq, Repr

/-- Why nothing is done for a command line. -/
inductive Diversion where
  /-- Help is asked for. -/
  | help (signature : Signature)
  | misuse (signature : Signature) (misuse : Misuse)
  /-- A path on the command line is none. -/
  | notAPath (written : Text)
  deriving DecidableEq, Repr

/-- The names of an option. -/
def CommandOption.hint (option : CommandOption) : Text :=
  let long := Text.display option.long
  match option.short with
  | some c => Text.display ['-', c] ++ " / " ++ long
  | none => long

/-- How a command is used, in one line. -/
def Signature.usage (signature : Signature) : Text :=
  let operands : Text := match signature.operands with
    | .nothing => []
    | .one name => ' ' :: name
    | .command => " COMMAND [ARGS]..."
  "Usage: " ++ signature.path ++ " [OPTIONS]" ++ operands ++ "\n"

namespace Misuse

/-- A list of words between commas. -/
def listed (words : List Text) : Text :=
  List.intercalate ", " words

/-- Names that may have been meant instead, as a question. -/
def advice : List Text → Text
  | [] => []
  | [name] => " Did you mean " ++ Text.display name ++ "?"
  | names => " (Did you mean one of: " ++ listed (names.map Text.display) ++ "?)"

/-- A misuse in words. -/
def message : Misuse → Text
  | nothingAsked => []
  | missingCommand => "Missing command."
  | noSuchCommand word suggestions =>
    "No such command " ++ Text.display word ++ "." ++ advice suggestions
  | ambiguousCommand word candidates =>
    "Ambiguous command " ++ word ++ ": " ++ listed candidates
  | noSuchOption name suggestions =>
    "No such option " ++ Text.display name ++ "." ++ advice suggestions
  | takesNoValue name => "Option " ++ Text.display name ++ " does not take a value."
  | needsValue name => "Option " ++ Text.display name ++ " requires an argument."
  | invalidValue option objection => "Invalid value for " ++ option.hint ++ ": " ++ objection
  | missingOption option => "Missing option " ++ option.hint ++ "."
  | missingOperand name => "Missing argument '" ++ name ++ "'."
  | unexpectedOperands words =>
    let noun : Text := if words.length = 1 then "argument" else "arguments"
    "Got unexpected extra " ++ noun ++ " (" ++ List.intercalate [' '] words ++ ")"

/-- The report of a misuse says how the command is used, unless the misuse is about whether
an option takes a value. -/
def report (signature : Signature) (misuse : Misuse) : Text :=
  let error := "Error: " ++ misuse.message ++ "\n"
  match misuse with
  | nothingAsked => signature.usage
  | takesNoValue _ => error
  | needsValue _ => error
  | _ =>
    signature.usage ++ "Try '" ++ signature.path ++ " --help' for help.\n\n" ++ error

end Misuse

end Daybook.Command
