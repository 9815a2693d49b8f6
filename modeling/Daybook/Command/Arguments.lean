import Daybook.Command.Usage
import Daybook.Disk
import Daybook.Record
import Daybook.Text.Blank

/-!
# The arguments of a command

The words after a command are read in two passes. The first sorts them into options with
their values and operands, word by word, and stops at the first word that does not fit. The
second checks what was given: the options in the order in which they first appear, then the
operand, and then the options that were not given.

A command that takes another command stops at the first word that is no option, and leaves
the rest to that command.
-/
namespace Daybook.Command

/-- What the words after a command say. -/
structure Arguments where
  /-- The options by their long names, with their values, in the order given. -/
  given : List (Text × Text) := []
  operands : List Text := []
  deriving DecidableEq, Repr

namespace Arguments

/-- The arguments with one more option in front. -/
def withOption (name value : Text) (arguments : Arguments) : Arguments :=
  { arguments with given := (name, value) :: arguments.given }

/-- The arguments with one more operand in front. -/
def withOperand (word : Text) (arguments : Arguments) : Arguments :=
  { arguments with operands := word :: arguments.operands }

/-- All values given for an option. -/
def all (name : Text) (arguments : Arguments) : List Text :=
  arguments.given.filterMap fun (given, value) => if given = name then some value else none

/-- The value of an option that counts when only one can. -/
def last? (name : Text) (arguments : Arguments) : Option Text :=
  (arguments.all name).getLast?

/-- An option is given. -/
def has (name : Text) (arguments : Arguments) : Bool :=
  arguments.given.any fun (given, _) => given = name

/-- The operand of a command that takes one. -/
def operand (arguments : Arguments) : Text :=
  arguments.operands.headD []

end Arguments

/-- The option that a word names, the name as it was written, and the value that the word
itself holds. -/
structure Recognised where
  option : CommandOption
  name : Text
  value : Option Text

/-- A word that names an option, and is not the mark `--` that ends the options. -/
def namesOption : Text → Bool
  | '-' :: _ :: _ => true
  | _ => false

namespace Signature

/-- The option of a word. The whole word is tried as a long name, with a value after the
first `=` if there is one. Otherwise a word with a single dash is a short name, and what
follows the name is its value. -/
def recognise (signature : Signature) (word : Text) : Except Misuse Recognised :=
  let (name, value) : Text × Option Text := match Text.cutAt '=' word with
    | some (before, after) => (before, some after)
    | none => (word, none)
  match signature.options.find? fun option => option.long = name with
  | some option =>
    if option.arity = .switch ∧ value.isSome then .error (.takesNoValue name)
    else .ok ⟨option, name, value⟩
  | none =>
    match word with
    | '-' :: c :: rest =>
      if c = '-' then
        .error (.noSuchOption name (Text.suggestions (signature.options.map (·.long)) name))
      else match signature.options.find? fun option => option.short = some c with
        | some option => .ok ⟨option, ['-', c], if rest = [] then none else some rest⟩
        | none => .error (.noSuchOption ['-', c] [])
    | _ => .error (.noSuchOption name [])

/-- Sorts words into options and operands. An option without a value of its own takes the
next word, whatever that is. -/
def sort (signature : Signature) : List Text → Except Misuse Arguments
  | [] => .ok {}
  | word :: rest =>
    if word = ['-', '-'] then .ok { operands := rest }
    else if namesOption word then
      match signature.recognise word with
      | .error misuse => .error misuse
      | .ok ⟨option, name, value⟩ =>
        match value, rest with
        | some value, rest => (signature.sort rest).map (·.withOption option.long value)
        | none, rest =>
          if option.arity = .switch then (signature.sort rest).map (·.withOption option.long [])
          else match rest with
            | [] => .error (.needsValue name)
            | value :: rest => (signature.sort rest).map (·.withOption option.long value)
    else if signature.operands = .command then .ok { operands := word :: rest }
    else (signature.sort rest).map (·.withOperand word)

end Signature

/-- A letter in its small form: a capital letter of the basic alphabet, and the two other
characters whose small form is a basic letter. -/
def smallLetter (c : Char) : Char :=
  if c = '\u017F' then 's' else if c = '\u212A' then 'k' else c.toLower

/-- The values are paths. -/
def Accepts.isPath : Accepts → Bool
  | .folderPath => true
  | .filePath => true
  | _ => false

/-- What a written path leads to. An empty path leads nowhere, and one that ends in a slash
or in a slash and a dot never leads to a plain file. -/
def leadsTo? (disk : Disk) (written : Text) : Option Entry :=
  let last := ((written.splitOn '/').getLast?).getD []
  if written = [] then none
  else match disk.find (FilePath.ofText written) with
    | .ok (.file content) =>
      if '/' ∈ written ∧ (last = [] ∨ last = ['.']) then none else some (.file content)
    | .ok .folder => some .folder
    | .error _ => none

/-- The posting that a value describes in one to three words. -/
def posting? (value : Text) : Option Posting :=
  match Text.words value with
  | [account] => some { account }
  | [account, amount] => some { account, amount }
  | [account, amount, currency] => some { account, amount, currency }
  | _ => none

/-- What speaks against a value. -/
def Accepts.objection? (disk : Disk) (value : Text) : Accepts → Option Text
  | .anything => none
  | .folderPath =>
    match leadsTo? disk value with
    | some (.file _) => some ("Directory " ++ Text.display value ++ " is a file.")
    | _ => none
  | .filePath =>
    match leadsTo? disk value with
    | some .folder => some ("File " ++ Text.display value ++ " is a directory.")
    | _ => none
  | .oneOf choices =>
    if choices.any fun choice => choice.map smallLetter = value.map smallLetter then none
    else some (Text.display value ++ " is not one of " ++
      Misuse.listed (choices.map Text.display) ++ ".")
  | .posting =>
    match posting? value with
    | some _ => none
    | none => some ("Expected 'ACCOUNT [AMOUNT [CURRENCY]]' but got " ++ Text.display value)

/-- The values of an option that count. -/
def CommandOption.values (option : CommandOption) (arguments : Arguments) : List Text :=
  match option.arity with
  | .switch => []
  | .single => ((arguments.last? option.long) <|> option.fallback).toList
  | .many => arguments.all option.long

/-- Checks what was given for an option of a command. -/
def CommandOption.check (option : CommandOption) (signature : Signature) (disk : Disk)
    (arguments : Arguments) : Except Diversion Unit :=
  let values := option.values arguments
  let unusable (value : Text) : Bool :=
    option.accepts.isPath && !(FilePath.ofText value).isUsable
  if option.required ∧ values = [] then .error (.misuse signature (.missingOption option))
  else match values.find? unusable with
    | some value => .error (.notAPath value)
    | none =>
      match values.findSome? fun value => option.accepts.objection? disk value with
      | some objection => .error (.misuse signature (.invalidValue option objection))
      | none => .ok ()

namespace Signature

/-- Checks the options in the order in which they were first given, the operand, and the
options that were not given. Last of all come operands for which there is no use. -/
def check (signature : Signature) (disk : Disk) (arguments : Arguments) :
    Except Diversion Unit := do
  let named := (arguments.given.map (·.1)).eraseDups
  let first := named.filterMap fun name => signature.options.find? fun o => o.long = name
  let others := signature.options.filter fun option => !arguments.has option.long
  first.forM (·.check signature disk arguments)
  match signature.operands with
  | .one name =>
    if arguments.operands = [] then throw (.misuse signature (.missingOperand name))
  | _ => pure ()
  others.forM (·.check signature disk arguments)
  let unused := match signature.operands with
    | .nothing => arguments.operands
    | .one _ => arguments.operands.drop 1
    | .command => []
  if unused ≠ [] then throw (.misuse signature (.unexpectedOperands unused))

/-- The option that asks for help, which every command has. -/
def helpOption : CommandOption := { long := "--help", arity := .switch }

/-- Reads the words after a command. Asking for help comes before every check, and a command
that leads on to others needs at least one word. -/
def read (signature : Signature) (disk : Disk) (words : List Text) :
    Except Diversion Arguments := do
  if signature.operands = .command ∧ words = [] then throw (.misuse signature .nothingAsked)
  let arguments ← (signature.sort words).mapError (.misuse signature)
  if arguments.has helpOption.long then throw (.help signature)
  signature.check disk arguments
  return arguments

end Signature

end Daybook.Command
