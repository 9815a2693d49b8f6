import Daybook.Template.Fields
import Daybook.Text.Case
import Daybook.Text.Lines

/-!
# Calls

What is called is a function or a method of a value. It is given values, of which the last ones
may have names. Each takes a number of values of certain kinds and refuses others. What is
called at last is never written before it has its values.
-/
namespace Daybook.Template

/-- What is given in a call. -/
structure Arguments where
  values : List Datum
  names : List Text := []
  /-- The values of the names. -/
  named : List Datum := []

namespace Arguments

/-- So many of something that a function takes. -/
def counted (count : Nat) : Text :=
  if count = 1 then "1 positional argument" else Text.decimal count ++ " positional arguments"

/-- The names of missing values. -/
def enumerated (names : List Text) : Text :=
  let marked : List Text := names.map fun name => "'" ++ name ++ "'"
  match marked with
  | [a, b] => a ++ " and " ++ b
  | many =>
    if many.length < 3 then many.flatten
    else List.intercalate ", " many.dropLast ++ ", and " ++ many.getLast?.getD []

/-- The values of the parameters of a function. The first `hidden` parameters have their values
without being given them, and the first `required` ones have to have one. -/
def fit (function : Text) (hidden required : Nat) (parameters : List Text)
    (arguments : Arguments) : Except Fault (List (Option Datum)) :=
  let visible := parameters.drop hidden
  let given := arguments.values.length
  match arguments.names.find? fun name => !visible.contains name with
  | some name =>
    .error (.mismatch (function ++ "() got an unexpected keyword argument '" ++ name ++ "'"))
  | none =>
    match arguments.names.find? fun name => (visible.take given).contains name with
    | some name =>
      .error (.mismatch (function ++ "() got multiple values for argument '" ++ name ++ "'"))
    | none =>
      if visible.length < given then
        let takes := if required = parameters.length then counted required
          else "from " ++ Text.decimal required ++ " to " ++ counted parameters.length
        .error (.mismatch (function ++ "() takes " ++ takes ++ " but " ++
          Text.decimal (hidden + given) ++ (if hidden + given = 1 then " was" else " were") ++
          " given"))
      else
        let found : List (Option Datum) := visible.mapIdx fun n name =>
          (arguments.values[n]?).orElse fun _ =>
            Datum.namedItem? arguments.names arguments.named name
        let missing := ((visible.zip found).take (required - hidden)).filterMap
          fun (name, value) => if value.isNone then some name else none
        if missing = [] then .ok found
        else
          .error (.mismatch (function ++ "() missing " ++ Text.decimal missing.length ++
            " required positional argument" ++ (if missing.length = 1 then ": " else "s: ") ++
            enumerated missing))

/-- The values of a call without names that has between `least` and `most` of them. -/
def positional (owner function : Text) (least most : Nat) (arguments : Arguments) :
    Except Fault (List Datum) :=
  let given := arguments.values.length
  let whole := owner ++ "." ++ function ++ "()"
  if arguments.names ≠ [] then .error (.mismatch (whole ++ " takes no keyword arguments"))
  else if least ≤ given ∧ given ≤ most then .ok arguments.values
  else if most = 0 then
    .error (.mismatch (whole ++ " takes no arguments (" ++ Text.decimal given ++ " given)"))
  else if least = 1 ∧ most = 1 then
    .error (.mismatch (whole ++ " takes exactly one argument (" ++ Text.decimal given ++
      " given)"))
  else
    let bound := if given < least then least else most
    .error (.mismatch (function ++ " expected " ++
      (if given < least then "at least " else "at most ") ++ Text.decimal bound ++ " argument" ++
      (if bound = 1 then "" else "s") ++ ", got " ++ Text.decimal given))

end Arguments

namespace Datum

/-! ## Kinds of values -/

/-- The whole number that a value is used as. -/
def index (value : Datum) : Except Fault Int :=
  match value.whole? with
  | some n => .ok n
  | none =>
    .error (.mismatch ("'" ++ value.kind ++ "' object cannot be interpreted as an integer"))

/-- The text that a value is, or the fault of something else. -/
def asText (fault : Text → Fault) (value : Datum) : Except Fault Text :=
  match value with
  | text value => .ok value
  | value => .error (fault value.kind)

/-- The fault of a value that has to be a text. -/
def notText (kind : Text) : Fault :=
  .mismatch ("must be str, not " ++ kind)

/-- A limit on a number of occurrences. Below zero there is none. -/
def limit (length : Nat) (count : Int) : Nat :=
  if count < 0 then length + 1 else count.toNat

/-- The bounds that are given to a search. -/
def searchBounds (values : List Datum) : Except Fault (List (Option Int)) :=
  values.mapM fun value =>
    match value.bound? with
    | some bound => .ok bound
    | none =>
      .error (.mismatch "slice indices must be integers or None or have an __index__ method")

/-- The part between bounds that is searched, and the position where it begins. A bound below zero
counts from the end, and a part that would end before it begins is none, not even an empty one. -/
def searched {α : Type} (items : List α) (bounds : List (Option Int)) : Option (Nat × List α) :=
  let size := Int.ofNat items.length
  let counted (bound : Int) : Int := max 0 (if bound < 0 then bound + size else bound)
  let start := (bounds[0]?.join).elim 0 counted
  let stop := min size ((bounds[1]?.join).elim size counted)
  if start ≤ stop then some (start.toNat, (items.take stop.toNat).drop start.toNat) else none

/-! ## Texts -/

/-- A text without characters of the given sort at its ends. -/
def stripped (atStart atEnd : Bool) (sort : Char → Bool) (value : Text) : Text :=
  let value := if atStart then value.dropWhile sort else value
  if atEnd then (value.reverse.dropWhile sort).reverse else value

/-- The characters that a call removes from the ends of a text. -/
def strippedSort (method : Text) : List Datum → Except Fault (Char → Bool)
  | [] => .ok Text.isBlank
  | [nothing] => .ok Text.isBlank
  | text characters :: _ => .ok characters.contains
  | _ => .error (.mismatch (method ++ " arg must be None or str"))

/-- The words of a text, at most `limit` of them before the rest. -/
def wordsUpTo : Nat → Text → List Text
  | 0, value =>
    let rest := value.dropWhile Text.isBlank
    if rest = [] then [] else [rest]
  | limit + 1, value =>
    let rest := value.dropWhile Text.isBlank
    if rest = [] then []
    else
      let word := rest.takeWhile fun c => !Text.isBlank c
      word :: wordsUpTo limit (rest.drop word.length)

/-- The parts of a text between separators, or its words, counted from its beginning or from its
end. -/
def splitText (fromEnd : Bool) (value : Text) (separator limitation : Option Datum) :
    Except Fault Datum := do
  let turned (part : Text) : Text := if fromEnd then part.reverse else part
  let limit ← match limitation with
    | none => pure (limit value.length (-1))
    | some count => (index count).map (limit value.length)
  let parts ← match separator with
    | none => pure (wordsUpTo limit (turned value))
    | some nothing => pure (wordsUpTo limit (turned value))
    | some (text []) => throw (.unacceptable "empty separator")
    | some (text separator) => pure (Text.splitAtText (turned separator) limit (turned value))
    | some other => throw (.mismatch ("must be str or None, not " ++ other.kind))
  let inOrder := if fromEnd then parts.reverse else parts
  return series .list (inOrder.map fun part => text (turned part))

/-- Texts with another one between them. -/
def joinTexts (between : Text) (items : List Datum) : Except Fault Text := do
  let texts ← (items.zipIdx).mapM fun (item, position) =>
    item.asText fun kind => .mismatch ("sequence item " ++ Text.decimal position ++
      ": expected str instance, " ++ kind ++ " found")
  return List.intercalate between texts

/-- The character that fills a field up. -/
def filling : List Datum → Except Fault Char
  | [] => .ok ' '
  | text [c] :: _ => .ok c
  | text _ :: _ => .error (.mismatch "The fill character must be exactly one character long")
  | other :: _ =>
    .error (.mismatch ("The fill character must be a unicode character, not " ++ other.kind))

/-- A text in the middle of a field. What cannot be halved goes to the left in a field of odd
width, and else to the right. -/
def centred (width : Int) (fill : Char) (value : Text) : Text :=
  let missing := width.toNat - value.length
  let left := missing / 2 + missing % 2 * (width.toNat % 2)
  List.replicate left fill ++ value ++ List.replicate (missing - left) fill

/-- A text in a field of the given width, with what fills it before or after the text. -/
def justified (atLeft : Bool) (width : Int) (fill : Char) (value : Text) : Text :=
  let padding := List.replicate (width.toNat - value.length) fill
  if atLeft then value ++ padding else padding ++ value

/-- A number with zeros after its sign. -/
def zeroFilled (width : Int) : Text → Text
  | '-' :: digits => '-' :: Text.padLeft '0' (width.toNat - 1) digits
  | '+' :: digits => '+' :: Text.padLeft '0' (width.toNat - 1) digits
  | value => Text.padLeft '0' width.toNat value

/-- A text with a large letter at the beginning of each word, and small ones after it. -/
def titledFrom (inWord : Bool) : Text → Text
  | [] => []
  | c :: rest =>
    let isCased := Text.smallForm c ≠ Text.largeForm c
    (if inWord then Text.smallForm c else Text.initialForm c) ++ titledFrom isCased rest

/-- Every letter of a text that has small and large forms has the given form, and there is
one. -/
def isAllIn (form other : Char → Text) (value : Text) : Bool :=
  value.any (fun c => form c ≠ other c) && value.all fun c => form c = [c] || form c = other c

/-- The text begins or ends with one of the texts that a value holds. -/
def isAtEdge (method : Text) (isEdge : Text → Bool) : Datum → Except Fault Bool
  | text value => .ok (isEdge value)
  | series .tuple items => do
    let texts ← items.mapM (asText fun kind =>
      .mismatch ("tuple for " ++ method ++ " must only contain str, not " ++ kind))
    return texts.any isEdge
  | other =>
    .error (.mismatch (method ++ " first arg must be str or a tuple of str, not " ++ other.kind))

/-- The position of a text in another one, the first or the last one that it has there. -/
def position? (atLast : Bool) (wanted value : Text) : Option Nat :=
  if atLast then
    (Text.cutAtText wanted.reverse value.reverse).map fun (_, before) => before.length
  else (Text.cutAtText wanted value).map fun (before, _) => before.length

/-- The parts of a text before and after the first occurrence of a separator. -/
def parted (value separator : Text) : Except Fault Datum :=
  if separator = [] then .error (.unacceptable "empty separator")
  else match Text.cutAtText separator value with
    | some (before, after) => .ok (series .tuple [text before, text separator, text after])
    | none => .ok (series .tuple [text value, text [], text []])

/-- The parts of a text before and after the last occurrence of a separator. -/
def partedAtLast (value separator : Text) : Except Fault Datum :=
  if separator = [] then .error (.unacceptable "empty separator")
  else match Text.cutAtText separator.reverse value.reverse with
    | some (after, before) =>
      .ok (series .tuple [text before.reverse, text separator, text after.reverse])
    | none => .ok (series .tuple [text [], text [], text value])

/-- What a text does when it is called by a name. -/
def callText (value name : Text) (arguments : Arguments) : Except Fault Datum :=
  let positional := arguments.positional "str" name
  let plain (result : Datum) : Except Fault Datum := (positional 0 0).map fun _ => result
  let one (next : Datum → Except Fault Datum) : Except Fault Datum := do
    match ← positional 1 1 with
    | [only] => next only
    | _ => throw (.mismatch [])
  let bounded (next : Datum → Option (Nat × Text) → Except Fault Datum) : Except Fault Datum := do
    match ← positional 1 3 with
    | wanted :: limits => do
      let limits ← searchBounds limits
      next wanted (searched value limits)
    | [] => throw (.mismatch [])
  let found (atLast : Bool) (next : Option Nat → Except Fault Datum) : Except Fault Datum :=
    bounded fun wanted part => do
      let wanted ← wanted.asText notText
      next (part.bind fun (start, part) => (position? atLast wanted part).map (start + ·))
  let found? (atLast : Bool) : Except Fault Datum :=
    found atLast fun position => .ok (whole (position.elim (-1) Int.ofNat))
  let foundAt (atLast : Bool) : Except Fault Datum :=
    found atLast fun
      | some position => .ok (whole position)
      | none => .error (.unacceptable "substring not found")
  let fielded (next : Int → Char → Text) : Except Fault Datum := do
    match ← positional 1 2 with
    | width :: fill => do
      let width ← width.index
      let fill ← filling fill
      return text (next width fill)
    | [] => throw (.mismatch [])
  let strip (atStart atEnd : Bool) : Except Fault Datum := do
    let given ← positional 0 1
    let sort ← strippedSort name given
    return text (stripped atStart atEnd sort value)
  if name = "upper" then plain (text (Text.toLarge value))
  else if name = "lower" then plain (text (Text.toSmall value))
  else if name = "capitalize" then plain (text (Text.capitalised value))
  else if name = "title" then plain (text (titledFrom false value))
  else if name = "isdigit" ∨ name = "isdecimal" then
    plain (truth (value ≠ [] && value.all fun c => (Text.digitValue c).isSome))
  else if name = "isalnum" then plain (truth (value ≠ [] && value.all Text.isAlphanumeric))
  else if name = "isspace" then plain (truth (value ≠ [] && value.all Text.isBlank))
  else if name = "islower" then plain (truth (isAllIn Text.smallForm Text.largeForm value))
  else if name = "isupper" then plain (truth (isAllIn Text.largeForm Text.smallForm value))
  else if name = "strip" then strip true true
  else if name = "lstrip" then strip true false
  else if name = "rstrip" then strip false true
  else if name = "center" then fielded fun width fill => centred width fill value
  else if name = "ljust" then fielded fun width fill => justified true width fill value
  else if name = "rjust" then fielded fun width fill => justified false width fill value
  else if name = "zfill" then one fun width => (index width).map fun width =>
    text (zeroFilled width value)
  else if name = "split" then do
    let given ← arguments.fit "split" 0 0 ["sep", "maxsplit"]
    splitText false value (given[0]?.join) (given[1]?.join)
  else if name = "rsplit" then do
    let given ← arguments.fit "rsplit" 0 0 ["sep", "maxsplit"]
    splitText true value (given[0]?.join) (given[1]?.join)
  else if name = "splitlines" then plain (series .list ((Text.lines value).map text))
  else if name = "join" then one fun items => do
    match items.items? with
    | .ok items => (joinTexts value items).map text
    | .error (.mismatch _) => throw (.mismatch "can only join an iterable")
    | .error fault => throw fault
  else if name = "startswith" then bounded fun wanted part =>
    (isAtEdge name (fun edge => part.any fun (_, part) => edge.isPrefixOf part) wanted).map truth
  else if name = "endswith" then bounded fun wanted part =>
    (isAtEdge name (fun edge => part.any fun (_, part) => edge.isSuffixOf part) wanted).map truth
  else if name = "count" then bounded fun wanted part => do
    let wanted ← wanted.asText notText
    return whole (part.elim 0 fun (_, part) => Text.occurrences wanted part)
  else if name = "find" then found? false
  else if name = "rfind" then found? true
  else if name = "index" then foundAt false
  else if name = "rindex" then foundAt true
  else if name = "replace" then do
    let wrong (position : Text) (kind : Text) : Fault :=
      .mismatch ("replace() argument " ++ position ++ " must be str, not " ++ kind)
    match ← positional 2 3 with
    | old :: new :: count => do
      let old ← old.asText (wrong "1")
      let new ← new.asText (wrong "2")
      let count ← match count with
        | [] => pure (-1)
        | count :: _ => count.index
      return text (Text.replaceText old new (limit value.length count) value)
    | _ => throw (.mismatch [])
  else if name = "removeprefix" then one fun part => do
    let part ← part.asText fun kind =>
      .mismatch ("removeprefix() argument must be str, not " ++ kind)
    return text (if part.isPrefixOf value then value.drop part.length else value)
  else if name = "removesuffix" then one fun part => do
    let part ← part.asText fun kind =>
      .mismatch ("removesuffix() argument must be str, not " ++ kind)
    return text (if part.isSuffixOf value then value.take (value.length - part.length) else value)
  else if name = "partition" then one fun part => do
    let part ← part.asText notText
    parted value part
  else if name = "rpartition" then one fun part => do
    let part ← part.asText notText
    partedAtLast value part
  else if name = "format" then
    (Fields.fill value ⟨arguments.values, arguments.names, arguments.named⟩).map text
  else .error (.mismatch [])

/-! ## Dates -/

/-- The week of a date. -/
def weekOf (day : Date) : Datum :=
  series .week [whole day.week.1, whole day.week.2, whole (day.weekday + 1)]

/-- The moment at which a date begins. -/
def momentOf (day : Date) : Datum :=
  series .moment [whole day.year, whole day.month, whole day.day, whole 0, whole 0, whole 0,
    whole day.weekday, whole day.dayOfYear, whole (-1)]

/-- The fault of numbers that make no date. -/
def dateFault : Date.Fault → Fault
  | .yearOutOfRange year => .unacceptable ("year " ++ Text.signedDecimal year ++ " is out of range")
  | .monthOutOfRange => .unacceptable "month must be in 1..12"
  | .dayOutOfRange => .unacceptable "day is out of range for month"
  | .overflow cause => .overflow cause.message
  | _ => .mismatch []

/-- A date with other numbers in place of some of its own. -/
def replaced (day : Date) (numbers : List (Option Datum)) : Except Fault Datum := do
  let part (position : Nat) (own : Nat) : Except Fault Int :=
    match numbers[position]?.join with
    | none => .ok own
    | some value => do
      let number ← value.index
      (Date.fit number).mapError dateFault
      return number
  let year ← part 0 day.year
  let month ← part 1 day.month
  let date' ← part 2 day.day
  ((Date.ofNumbers year month date').mapError dateFault).map date

/-- What a date does when it is called by a name. -/
def callDate (day : Date) (name : Text) (arguments : Arguments) : Except Fault Datum :=
  let plain (result : Datum) : Except Fault Datum :=
    (arguments.positional "date" name 0 0).map fun _ => result
  if name = "isoformat" then plain (text day.iso)
  else if name = "weekday" then plain (whole day.weekday)
  else if name = "isoweekday" then plain (whole (day.weekday + 1))
  else if name = "toordinal" then plain (whole day.ordinal)
  else if name = "isocalendar" then plain (weekOf day)
  else if name = "timetuple" then plain (momentOf day)
  else if name = "ctime" then plain (text (Date.Pattern.inWords day))
  else if name = "replace" then
    let known : List Text := ["year", "month", "day"]
    match arguments.names.find? fun name => !known.contains name with
    | some name =>
      .error (.mismatch ("'" ++ name ++ "' is an invalid keyword argument for replace()"))
    | none =>
      if 3 < arguments.values.length + arguments.names.length then
        .error (.mismatch ("replace() takes at most 3 arguments (" ++
          Text.decimal (arguments.values.length + arguments.names.length) ++ " given)"))
      else do
        let given ← arguments.fit "replace" 0 0 known
        replaced day given
  else if name = "strftime" then
    match arguments.values ++ arguments.named with
    | [] => .error (.mismatch "strftime() missing required argument 'format' (pos 1)")
    | [text pattern] =>
      if arguments.names.all (· = "format") then .ok (text (day.writeBy pattern))
      else .error (.mismatch "strftime() missing required argument 'format' (pos 1)")
    | [other] =>
      .error (.mismatch ("strftime() argument 1 must be str, not " ++ other.kind))
    | more =>
      .error (.mismatch ("strftime() takes at most 1 argument (" ++ Text.decimal more.length ++
        " given)"))
  else .error (.mismatch [])

/-! ## Other values -/

/-- What a record does when it is called by a name. -/
def callRecord (keys values : List Datum) (name : Text) (arguments : Arguments) :
    Except Fault Datum :=
  let plain (result : Datum) : Except Fault Datum :=
    (arguments.positional "dict" name 0 0).map fun _ => result
  if name = "keys" then plain (series .list keys)
  else if name = "values" then plain (series .list values)
  else if name = "items" then
    plain (series .list ((keys.zip values).map fun (key, value) => series .tuple [key, value]))
  else if name = "copy" then plain (record keys values)
  else if name = "get" then do
    match ← arguments.positional "dict" name 1 2 with
    | key :: other => do
      let found ← (record keys values).entryAt? key
      return found.getD (other.headD nothing)
    | [] => throw (.mismatch [])
  else .error (.mismatch [])

/-- What a series does when it is called by a name. -/
def callSeries (owner : Datum) (name : Text) (arguments : Arguments) : Except Fault Datum := do
  let items ← owner.items?
  if name = "count" then
    match ← arguments.positional owner.kind name 1 1 with
    | wanted :: _ => return whole (items.countP (same wanted))
    | [] => throw (.mismatch [])
  else if name = "index" then
    match ← arguments.positional owner.kind name 1 3 with
    | wanted :: limits =>
      let limits ← limits.mapM fun bound =>
        match bound.whole? with
        | some bound => Except.ok (some bound)
        | none => .error (.mismatch "slice indices must be integers or have an __index__ method")
      let found := (searched items limits).bind fun (start, part) =>
        (part.findIdx? (same wanted)).map (start + ·)
      match found, owner with
      | some position, _ => return whole position
      | none, series .list _ => throw (.unacceptable (wanted.display ++ " is not in list"))
      | none, range _ _ _ => throw (.unacceptable (wanted.display ++ " is not in range"))
      | none, _ => throw (.unacceptable "tuple.index(x): x not in tuple")
    | [] => throw (.mismatch [])
  else throw (.mismatch [])

/-- What a number does when it is called by a name. -/
def callNumber (owner : Datum) (name : Text) (arguments : Arguments) : Except Fault Datum := do
  let _ ← arguments.positional owner.kind name 0 0
  match owner.quantity? with
  | some (.whole n) =>
    if name = "bit_length" then
      return whole (if n = 0 then 0 else n.natAbs.log2 + 1)
    else return whole n
  | some (.fraction x) =>
    if name = "is_integer" then return truth (x.toInt?.isSome)
    else return fraction x
  | none => throw (.mismatch [])

/-- What a value does when it is called by a name. A number of a round takes the value whose
turn it is. -/
def callMethod (owner : Datum) (name : Text) (arguments : Arguments) : Except Fault Datum :=
  match owner with
  | text value => callText value name arguments
  | date day => callDate day name arguments
  | record keys values => callRecord keys values name arguments
  | series _ _ => callSeries owner name arguments
  | range _ _ _ => callSeries owner name arguments
  | whole n =>
    if name = "cycle" then
      match arguments.values[n.toNat % arguments.values.length]? with
      | some value => .ok value
      | none => .error (.mismatch "no items for cycling given")
    else callNumber owner name arguments
  | owner => callNumber owner name arguments

/-! ## Functions -/

/-- The largest number of items of a range. -/
def longestRange : Nat := 100000

/-- The range of whole numbers between bounds. -/
def rangeOf (arguments : Arguments) : Except Fault Datum := do
  if arguments.names ≠ [] then throw (.mismatch "range() takes no keyword arguments")
  let given := arguments.values.length
  if given = 0 then throw (.mismatch "range expected at least 1 argument, got 0")
  if 3 < given then
    throw (.mismatch ("range expected at most 3 arguments, got " ++ Text.decimal given))
  let numbers ← arguments.values.mapM index
  let (start, stop, step) : Int × Int × Int := match numbers with
    | [stop] => (0, stop, 1)
    | [start, stop] => (start, stop, 1)
    | start :: stop :: step :: _ => (start, stop, step)
    | [] => (0, 0, 1)
  if step = 0 then throw (.unacceptable "range() arg 3 must not be zero")
  if longestRange < rangeLength start stop step then
    throw (.overflow ("Range too big. The sandbox blocks ranges larger than MAX_RANGE (" ++
      Text.decimal longestRange ++ ")."))
  return range start stop step

/-- A record with more entries. A key that is there already keeps its place. -/
def withEntries (keys values : List Datum) : List (Datum × Datum) → Datum
  | [] => record keys values
  | (key, value) :: rest =>
    match keys.findIdx? (same key) with
    | some position => withEntries keys (values.set position value) rest
    | none => withEntries (keys ++ [key]) (values ++ [value]) rest

/-- The record of the given names, with the entries of another one before them. -/
def recordOf (arguments : Arguments) : Except Fault Datum :=
  let entries := (arguments.names.map text).zip arguments.named
  match arguments.values with
  | [] => .ok (withEntries [] [] entries)
  | [record keys values] => .ok (withEntries keys values entries)
  | [other] => do
    let items ← other.items?
    let pairs ← items.mapM fun item => do
      match ← item.items? with
      | [key, value] => return (key, value)
      | _ => throw (.mismatch [])
    return withEntries [] [] (pairs ++ entries)
  | more =>
    .error (.mismatch ("dict expected at most 1 argument, got " ++ Text.decimal more.length))

/-- The names of the functions that every template knows. -/
def functions : List Text :=
  ["range", "dict"]

/-- The value of a call. -/
def call (function : Datum) (arguments : Arguments) : Except Fault Datum :=
  match function with
  | undefined forbidden => .error (refusal forbidden)
  | method owner name => callMethod owner name arguments
  | Datum.function name => if name = "range" then rangeOf arguments else recordOf arguments
  | other => .error (.mismatch ("'" ++ other.kind ++ "' object is not callable"))

end Datum

end Daybook.Template
