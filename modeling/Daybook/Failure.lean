import Daybook.Diagnostic
import Daybook.Disk
import Daybook.Record.Checking
import Daybook.Span
import Daybook.Template
import Daybook.Text.Utf8
import Daybook.Yaml.Moment

/-!
# Failures

Everything that can go wrong, as its cause. Five kinds of failures concern the ledger
itself, and callers tell them apart without looking at their wording. The others say that
a value that was handed in is not acceptable, or that something failed outside the ledger.

The wording of each failure is given here once.
-/
namespace Daybook

/-- The kinds of failures that concern the ledger. -/
inductive Kind where
  | io
  | parse
  | notFound
  | invalidIdentifier
  | invalidDate
  deriving DecidableEq, Repr

/-- A failure. -/
inductive Failure where
  /-- A file cannot be read. -/
  | unreadable (path : Text) (fault : DiskFault)
  /-- A file cannot be written. -/
  | unwritable (path : Text) (fault : DiskFault)
  /-- A folder cannot be listed. -/
  | unlistable (path : Text) (fault : DiskFault)
  /-- A file is no ledger file. -/
  | unparsable (path : Text) (diagnostic : Diagnostic)
  /-- No transaction starts at the offset. -/
  | noTransaction (path : Text) (offset : Int)
  /-- No directive opens or closes the account. -/
  | noAccount (name : Text)
  /-- An id is not a path, a colon and an offset. -/
  | notAnIdentifier (id : Text)
  /-- The offset of an id is no number. -/
  | notAnOffset (id offset : Text)
  /-- The offset of an id has more digits than are read. -/
  | endlessOffset (count : Nat)
  /-- An offset has more digits than are written. -/
  | unwritableOffset
  /-- An id points outside the ledger files of a directory. -/
  | foreignIdentifier (id directory : Text)
  /-- A text is no date. -/
  | notADate (written : Text) (fault : Date.Fault)
  /-- A part of a date is too large. -/
  | dateOverflow (cause : Date.Overflow)
  /-- A text that has to be one word is none or several. -/
  | notAWord (kind value : Text)
  /-- The template yields no name for a ledger file. -/
  | notAFileName (name : Text)
  | alreadyOpen (name : Text)
  | alreadyClosed (name date : Text)
  | outOfRange (refused : OutOfRange)
  | negativeOffset (offset : Int)
  /-- A path has no last name that could be replaced. -/
  | nameless (path : Text)
  /-- A file is no text. -/
  | undecodable (malformed : Text.Utf8.Malformed)
  /-- Half a pair stands alone in what is to be written, shown or asked for. -/
  | unencodable (unpaired : Phrase.Unpaired)
  /-- A value does not describe a record of the kind. -/
  | invalid (kind : Text) (issues : List Issue)
  /-- A file is readable but has a transaction without a flag. -/
  | flagless
  | badTemplate (fault : Template.Fault)
  | badSettings (fault : Yaml.Fault)
  /-- Something is refused that is no reading or writing of a ledger file, or that the file
  system is not even asked for. -/
  | refused (fault : DiskFault)
  deriving DecidableEq, Repr

/-- What goes wrong in reading a date, in words. -/
def Date.Fault.message : Date.Fault → Text
  | .notANumber part fault => fault.message 10 part
  | .missingMonth => "function missing required argument 'month' (pos 2)"
  | .missingDay => "function missing required argument 'day' (pos 3)"
  | .tooManyParts count =>
    "function takes at most 3 arguments (" ++ Text.decimal count ++ " given)"
  | .yearOutOfRange year => "year " ++ Text.signedDecimal year ++ " is out of range"
  | .monthOutOfRange => "month must be in 1..12"
  | .dayOutOfRange => "day is out of range for month"
  | .overflow cause => cause.message

/-- What is wrong with a template, in words. -/
def Template.Fault.message : Template.Fault → Text
  | .malformed => "the template is malformed"
  | .unknownName => "the template names an unknown filter or test"
  | .unknownNameInUse => "the template uses an unknown filter or test"
  | .undefinedValue => "the template uses an undefined value"
  | .forbidden => "the template uses a value that it has no access to"
  | .unsuitable => "a filter of the template cannot work on what it is given"
  | .mismatch message => message
  | .unacceptable message => message
  | .divisionByZero message => message
  | .overflow message => message
  | .noSuchMember message => message
  | .noSuchKey message => message
  | .noSuchPosition message => message

/-- What is wrong with a settings file, in words. -/
def Yaml.Fault.message : Yaml.Fault → Text
  | .undecodable malformed => malformed.message
  | .character => "special characters are not allowed"
  | .lexeme => "no lexeme can be read"
  | .arrangement => "a lexeme stands where it may not"
  | .reference => "a name stands for no single node"
  | .value => "a node has no value"
  | .noSuchCharacter => "chr() arg not in range(0x110000)"
  | .characterOverflow => "Python int too large to convert to C int"
  | .notWhole base written fault => fault.message base written
  | .notAFraction written => "could not convert string to float: " ++ Text.display written
  | .emptyNumber => "string index out of range"
  | .notATruth word => Text.display word
  | .notAMoment => "'NoneType' object has no attribute 'groupdict'"
  | .noSuchDay cause => cause.message
  | .noSuchTime cause => cause.message

/-- The fault says that a scalar, or a part of one, is not acceptable. -/
def Yaml.Fault.concernsValue : Yaml.Fault → Bool
  | .undecodable _ => true
  | .noSuchCharacter => true
  | .notWhole _ _ _ => true
  | .notAFraction _ => true
  | .noSuchDay _ => true
  | .noSuchTime _ => true
  | _ => false

/-- What is wrong with a part of a record, in words: where it is, what is wrong there, what was
found, and where more is said about such problems. -/
def Issue.message (issue : Issue) : Text :=
  let step : Step → Text := fun
    | .field name => name
    | .item index => Text.decimal index
  let place := List.intercalate ['.'] (issue.location.map step)
  let code := issue.problem.code
  (if place = [] then [] else place ++ ['\n']) ++ "  " ++ issue.problem.message ++
    " [type=" ++ code ++ ", input_value=" ++ Text.abridged issue.found.form ++
    ", input_type=" ++ issue.found.kind ++ "]\n" ++
    "    For further information visit https://errors.pydantic.dev/2.14/v/" ++ code

/-- What is wrong with a record, in words. -/
def Issue.report (kind : Text) (issues : List Issue) : Text :=
  Text.decimal issues.length ++
    (if issues.length = 1 then " validation error for " else " validation errors for ") ++ kind ++
    issues.flatMap fun issue => '\n' :: issue.message

namespace Failure

/-- The kind of a failure that concerns the ledger. -/
def kind? : Failure → Option Kind
  | unreadable _ _ => some .io
  | unwritable _ _ => some .io
  | unlistable _ _ => some .io
  | unparsable _ _ => some .parse
  | noTransaction _ _ => some .notFound
  | noAccount _ => some .notFound
  | notAnIdentifier _ => some .invalidIdentifier
  | notAnOffset _ _ => some .invalidIdentifier
  | foreignIdentifier _ _ => some .invalidIdentifier
  | notADate _ _ => some .invalidDate
  | _ => none

/-- The failure says that a value is not acceptable. -/
def concernsValue : Failure → Bool
  | endlessOffset _ => true
  | unwritableOffset => true
  | notAWord _ _ => true
  | notAFileName _ => true
  | alreadyOpen _ => true
  | alreadyClosed _ _ => true
  | outOfRange _ => true
  | negativeOffset _ => true
  | nameless _ => true
  | undecodable _ => true
  | unencodable _ => true
  | invalid _ _ => true
  | badTemplate (.unacceptable _) => true
  | badSettings fault => fault.concernsValue
  | refused fault => fault.refusal = .notAPath
  | _ => false

/-- The failure in words. -/
def message : Failure → Text
  | unreadable path fault => "Failed to read " ++ path ++ ": " ++ fault.message
  | unwritable path fault => "Failed to write " ++ path ++ ": " ++ fault.message
  | unlistable path fault => "Failed to list " ++ path ++ ": " ++ fault.message
  | unparsable path diagnostic => "Failed to parse " ++ path ++ ": " ++ diagnostic.toText
  | noTransaction path offset =>
    "No transaction starts at " ++ path ++ ":" ++ Text.signedDecimal offset
  | noAccount name => "Account " ++ name ++ " not found"
  | notAnIdentifier id => "Invalid id " ++ Text.display id ++ ", expected <path>:<offset>"
  | notAnOffset id offset =>
    "Invalid id " ++ Text.display id ++ ", offset " ++ Text.display offset ++
      " is not a non-negative integer"
  | endlessOffset count => (Text.NumeralFault.tooManyDigits count).message 10 []
  | unwritableOffset => Text.unwritableNumber
  | foreignIdentifier id directory =>
    "Id " ++ Text.display id ++ " does not point at a ledger file in " ++ directory
  | notADate written fault => "Invalid date " ++ Text.display written ++ ": " ++ fault.message
  | dateOverflow cause => cause.message
  | notAWord kind value => "Invalid " ++ kind ++ " " ++ Text.display value
  | notAFileName name =>
    "Period file template rendered an invalid file name " ++ Text.display name
  | alreadyOpen name => "Account " ++ name ++ " is already opened"
  | alreadyClosed name date => "Account " ++ name ++ " is already closed on " ++ date
  | outOfRange range => range.message
  | negativeOffset offset => "Offset must be non-negative, got " ++ Text.signedDecimal offset
  | nameless path => "PosixPath(" ++ Text.display path ++ ") has an empty name"
  | undecodable malformed => malformed.message
  | unencodable unpaired => unpaired.message
  | invalid kind issues => Issue.report kind issues
  | flagless => "'NoneType' object has no attribute 'value'"
  | badTemplate fault => fault.message
  | badSettings fault => fault.message
  | refused fault => fault.message

end Failure

/-- The text of a phrase, which has to have one. -/
def Phrase.read (phrase : Phrase) : Except Failure Text :=
  phrase.toText.mapError Failure.unencodable

/-- The date that a text names. -/
def Date.read (written : Text) : Except Failure Date :=
  match Date.ofText written with
  | .ok date => .ok date
  | .error (.overflow cause) => .error (.dateOverflow cause)
  | .error fault => .error (.notADate written fault)

end Daybook
