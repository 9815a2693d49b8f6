import Daybook.Template.Question

/-!
# Filters

A filter makes a new value of a value. Filters are named, and some take further values. Most of
them work on the text that a value prints as, on its number, or on its items.
-/
namespace Daybook.Template.Filter

/-- The functions behind the filters that work on texts, by the names of the filters. -/
def ofTexts : List (Text × Signature) :=
  [("capitalize", ⟨"do_capitalize", 1, 1, ["s"]⟩),
    ("center", ⟨"do_center", 1, 1, ["value", "width"]⟩),
    ("d", ⟨"do_default", 1, 1, ["value", "default_value", "boolean"]⟩),
    ("default", ⟨"do_default", 1, 1, ["value", "default_value", "boolean"]⟩),
    ("e", ⟨"escape", 1, 1, ["s"]⟩),
    ("escape", ⟨"escape", 1, 1, ["s"]⟩),
    ("forceescape", ⟨"do_forceescape", 1, 1, ["value"]⟩),
    ("lower", ⟨"do_lower", 1, 1, ["s"]⟩),
    ("month_name", ⟨"month_name", 1, 1, ["date"]⟩),
    ("replace", ⟨"do_replace", 2, 4, ["eval_ctx", "s", "old", "new", "count"]⟩),
    ("safe", ⟨"do_mark_safe", 1, 1, ["value"]⟩),
    ("string", ⟨"soft_str", 1, 1, ["s"]⟩),
    ("title", ⟨"do_title", 1, 1, ["s"]⟩),
    ("trim", ⟨"do_trim", 1, 1, ["value", "chars"]⟩),
    ("truncate", ⟨"do_truncate", 2, 2, ["env", "s", "length", "killwords", "end", "leeway"]⟩),
    ("upper", ⟨"do_upper", 1, 1, ["s"]⟩),
    ("wordcount", ⟨"do_wordcount", 1, 1, ["s"]⟩)]

/-- The functions behind the filters that work on numbers. -/
def ofNumbers : List (Text × Signature) :=
  [("abs", ⟨"abs", 1, 1, ["x"]⟩),
    ("float", ⟨"do_float", 1, 1, ["value", "default"]⟩),
    ("int", ⟨"do_int", 1, 1, ["value", "default", "base"]⟩),
    ("round", ⟨"do_round", 1, 1, ["value", "precision", "method"]⟩)]

/-- The functions behind the filters that work on items and members. -/
def ofItems : List (Text × Signature) :=
  [("attr", ⟨"do_attr", 2, 3, ["environment", "obj", "name"]⟩),
    ("count", ⟨"len", 1, 1, ["obj"]⟩),
    ("dictsort", ⟨"do_dictsort", 1, 1, ["value", "case_sensitive", "by", "reverse"]⟩),
    ("first", ⟨"sync_do_first", 2, 2, ["environment", "seq"]⟩),
    ("items", ⟨"do_items", 1, 1, ["value"]⟩),
    ("join", ⟨"sync_do_join", 2, 2, ["eval_ctx", "value", "d", "attribute"]⟩),
    ("last", ⟨"do_last", 2, 2, ["environment", "seq"]⟩),
    ("length", ⟨"len", 1, 1, ["obj"]⟩),
    ("list", ⟨"sync_do_list", 1, 1, ["value"]⟩),
    ("max", ⟨"do_max", 2, 2, ["environment", "value", "case_sensitive", "attribute"]⟩),
    ("min", ⟨"do_min", 2, 2, ["environment", "value", "case_sensitive", "attribute"]⟩),
    ("reverse", ⟨"do_reverse", 1, 1, ["value"]⟩),
    ("sort", ⟨"do_sort", 2, 2, ["environment", "value", "reverse", "case_sensitive", "attribute"]⟩),
    ("sum", ⟨"sync_do_sum", 2, 2, ["environment", "iterable", "attribute", "start"]⟩),
    ("unique", ⟨"do_unique", 2, 2, ["environment", "value", "case_sensitive", "attribute"]⟩)]

/-- The functions behind the filters. -/
def signatures : List (Text × Signature) :=
  ofTexts ++ ofNumbers ++ ofItems

/-- The function behind a filter. -/
def signature? (name : Text) : Option Signature :=
  (signatures.find? fun (known, _) => known == name).map (·.2)

/-- The names of the filters that are not in the table: those that take any number of values, and
those that are of no use in the name of a file and refuse every value. -/
def further : List Text :=
  ["batch", "filesizeformat", "format", "groupby", "indent", "map", "pprint", "random", "reject",
    "rejectattr", "select", "selectattr", "slice", "striptags", "tojson", "urlencode", "urlize",
    "wordwrap", "xmlattr"]

/-- The names of all filters. -/
def names : List Text :=
  signatures.map (·.1) ++ further

/-! ## Texts -/

/-- The text with escapes for the characters that markup is written with. -/
def escaped (value : Text) : Text :=
  value.flatMap fun c =>
    if c = '&' then "&amp;"
    else if c = '<' then "&lt;"
    else if c = '>' then "&gt;"
    else if c = '\'' then "&#39;"
    else if c = '"' then "&#34;"
    else [c]

/-- The character stands between words of a title. -/
def endsTitleWord (c : Char) : Bool :=
  Text.isBlank c || ['-', '(', '\x7b', '[', '<'].contains c

/-- A text with a large letter at the beginning of every word, and small ones after it. -/
def titled (inWord : Bool) : Text → Text
  | [] => []
  | c :: rest =>
    (if inWord then Text.smallForm c else Text.largeForm c) ++ titled (!endsTitleWord c) rest

/-- The number of words of a text. -/
def wordCount (inWord : Bool) : Text → Nat
  | [] => 0
  | c :: rest =>
    let isPart := c == '_' || Text.isAlphanumeric c
    (if isPart && !inWord then 1 else 0) + wordCount isPart rest

/-- The text before the last blank, or the whole text if it has none. -/
def withoutLastWord (value : Text) : Text :=
  match Text.cutAt ' ' value.reverse with
  | some (_, before) => before.reverse
  | none => value

/-- A text that is too long, cut off. -/
def truncated (value : Text) (length : Int) (inWords : Bool) (ending : Text) (leeway : Int) :
    Except Fault Text :=
  if length < Int.ofNat ending.length ∨ leeway < 0 then .error (.mismatch [])
  else if Int.ofNat value.length ≤ length + leeway then .ok value
  else
    let kept := value.take (length.toNat - ending.length)
    .ok ((if inWords then kept else withoutLastWord kept) ++ ending)

/-! ## Numbers -/

/-- The number with a point that a value can be read as, if there is one. -/
def fraction? (value : Datum) : Except Fault (Option Fraction) :=
  match value with
  | .undefined forbidden => .error (Datum.refusal forbidden)
  | .text written => .ok (Fraction.ofText? written)
  | value =>
    match value.quantity? with
    | some number => number.toFraction.map some
    | none => .ok none

/-- The whole number that a text in a base can be read as, or the whole part of the number with
a point that it can be read as, if there is one. -/
def wholeOfText? (base : Nat) (written : Text) : Option Int :=
  match Text.integer base written with
  | .ok n => some n
  | .error _ => (Fraction.ofText? written).bind Fraction.truncate?

/-- The whole number that a value can be read as, if there is one. -/
def whole? (base : Nat) (value : Datum) : Except Fault (Option Int) :=
  match value with
  | .undefined forbidden => .error (Datum.refusal forbidden)
  | .text written => .ok (wholeOfText? base written)
  | value =>
    match value.quantity? with
    | some (.whole n) => .ok (some n)
    | some (.fraction x) =>
      match x with
      | .infinite _ => .error (.overflow "cannot convert float infinity to integer")
      | x => .ok x.truncate?
    | none => .ok none

/-- A whole number rounded to a multiple of a power of ten, to the even one of two equally near
ones. -/
def roundedWhole (n : Int) (power : Nat) : Int :=
  let unit := Nat.pow 10 power
  let size := Int.ofNat (Fraction.roundedQuotient n.natAbs unit * unit)
  if n < 0 then -size else size

/-- The ways of rounding: to the nearest number, to the one above, and to the one below. -/
def roundings : List Text :=
  ["common", "ceil", "floor"]

/-- A number rounded at a place after the point. -/
def rounded (value : Datum) (places : Int) (method : Text) : Except Fault Datum := do
  if !roundings.contains method then throw .unsuitable
  if method = "common" then
    match value.quantity? with
    | some (.whole n) => return .whole (if 0 ≤ places then n else roundedWhole n places.natAbs)
    | some (.fraction x) => return .fraction (x.roundedAt places)
    | none =>
      match value with
      | .undefined _ => throw (.mismatch "type Undefined doesn't define __round__ method")
      | value => throw (.mismatch ("type " ++ value.kind ++ " doesn't define __round__ method"))
  else
    let unit ← Datum.operate .power (.whole 10) (.whole places)
    let scaled ← Datum.operate .multiply value unit
    let whole : Option Int := match scaled.quantity? with
      | some (.whole n) => some n
      | some (.fraction x) => if method = "ceil" then x.ceiling? else x.floor?
      | none => none
    match whole with
    | some n => Datum.operate .divide (.whole n) unit
    | none => throw (.mismatch ("must be real number, not " ++ scaled.kind))

/-- The size of a number. -/
def magnitude (value : Datum) : Except Fault Datum :=
  match value.quantity? with
  | some (.whole n) => .ok (.whole (Int.ofNat n.natAbs))
  | some (.fraction x) => .ok (.fraction (if x.isNegative then x.negate else x))
  | none => .error (.mismatch ("bad operand type for abs(): '" ++ value.kind ++ "'"))

/-! ## Series -/

/-- The value that another one is sorted by. The size of letters counts only where it is
asked for. -/
def sortKey (isExact : Bool) (value : Datum) : Datum :=
  match value with
  | .text written => if isExact then .text written else .text (Text.toSmall written)
  | value => value

/-- The first value is before the second. -/
def isBefore (sign : Text) (isExact : Bool) (a b : Datum) : Except Fault Bool := do
  let order ← Datum.order? sign (sortKey isExact a) (sortKey isExact b)
  return order = some (if sign = "<" then .lt else .gt)

/-- Sorted items with one more, behind those that it is not before. -/
def inserted (isExact : Bool) (item : Datum) : List Datum → Except Fault (List Datum)
  | [] => .ok [item]
  | other :: rest => do
    if ← isBefore "<" isExact item other then return item :: other :: rest
    else
      let rest ← inserted isExact item rest
      return other :: rest

/-- Items in their order. -/
def sorted (isExact : Bool) (items : List Datum) : Except Fault (List Datum) :=
  items.foldlM (fun sorted item => inserted isExact item sorted) []

/-- Items in their order, or in the opposite one. -/
def arranged (isReversed isExact : Bool) (items : List Datum) : Except Fault Datum := do
  if isReversed then
    let sorted ← sorted isExact items.reverse
    return .series .list sorted.reverse
  else
    let sorted ← sorted isExact items
    return .series .list sorted

/-- The first of the items that no other one is before, by the order that the sign means. -/
def extreme (sign : Text) (isExact : Bool) : List Datum → Except Fault Datum
  | [] => .ok (.undefined false)
  | first :: rest => rest.foldlM (fun best item => do
      if ← isBefore sign isExact item best then return item else return best) first

/-- Items without those that are the same as an earlier one. -/
def distinct (isExact : Bool) (items : List Datum) : List Datum :=
  (items.foldl (fun kept item =>
    if kept.any fun other => Datum.same (sortKey isExact other) (sortKey isExact item) then kept
    else item :: kept) []).reverse

/-- The items of a value in the opposite order. -/
def reversed (value : Datum) : Except Fault Datum :=
  match value with
  | .text written => .ok (.text written.reverse)
  | value =>
    match value.items? with
    | .ok items => .ok (.series .stream items.reverse)
    | .error (.mismatch _) => .error .unsuitable
    | .error fault => .error fault

/-- The entries of a record. -/
def entries (value : Datum) : Except Fault (List Datum) :=
  match value with
  | .record keys values =>
    .ok ((keys.zip values).map fun (key, value) => .series .tuple [key, value])
  | .undefined forbidden => if forbidden then .error .forbidden else .ok []
  | _ => .error (.mismatch "Can only get item pairs from a mapping.")

/-- The parts of a value with a path of members between points. -/
def along (path : Datum) (value : Datum) : Except Fault Datum :=
  let steps : List Datum := match path with
    | .text path => (List.splitOn '.' path).map fun step =>
      if step ≠ [] && step.all Char.isDigit then .whole (Nat.ofDigitChars 10 step 0)
      else .text step
    | path => [path]
  steps.foldlM Datum.entry value

/-! ## Filtering -/

/-- The English name of the month of a date. -/
def monthName (value : Datum) : Except Fault Datum :=
  match value with
  | .date day => .ok (.text day.monthName)
  | .undefined forbidden => .error (Datum.refusal forbidden)
  | value => .error (.noSuchMember ("'" ++ value.kind ++ "' object has no attribute 'strftime'"))

/-- The value that a filter of the table makes, given the values of its visible parameters. -/
def make (name : Text) (value : Datum) (given : List (Option Datum)) : Except Fault Datum := do
  let parameter (position : Nat) : Option Datum := given[position]?.join
  let holds (position : Nat) : Bool := (parameter position).any Datum.holds
  let printed : Text := value.print
  let number (position : Nat) (other : Int) : Except Fault Int :=
    match parameter position with
    | some value => value.index
    | none => .ok other
  if name = "default" ∨ name = "d" then
    let isMissing := match value with
      | .undefined _ => true
      | value => holds 1 && !value.holds
    return if isMissing then (parameter 0).getD (.text []) else value
  else if name = "lower" then return .text (Text.toSmall printed)
  else if name = "upper" then return .text (Text.toLarge printed)
  else if name = "capitalize" then return .text (Text.capitalised printed)
  else if name = "title" then return .text (titled false printed)
  else if name = "string" ∨ name = "safe" then return .text printed
  else if name = "e" ∨ name = "escape" ∨ name = "forceescape" then return .text (escaped printed)
  else if name = "month_name" then monthName value
  else if name = "center" then
    let width ← number 0 80
    return .text (Datum.centred width ' ' printed)
  else if name = "trim" then
    let sort ← Datum.strippedSort "strip" (parameter 0).toList
    return .text (Datum.stripped true true sort printed)
  else if name = "replace" then
    let count ← match parameter 2 with
      | some .nothing => pure (-1)
      | some count => count.index
      | none => pure (-1)
    let old := ((parameter 0).getD .nothing).print
    let new := ((parameter 1).getD .nothing).print
    return .text (Text.replaceText old new (Datum.limit printed.length count) printed)
  else if name = "truncate" then
    let length ← number 0 255
    let leeway ← number 3 5
    let ending := ((parameter 2).getD (.text "...")).print
    let count ← value.length
    if Int.ofNat ending.length ≤ length ∧ 0 ≤ leeway ∧ count ≤ length + leeway then return value
    let text ← truncated printed length (holds 1) ending leeway
    return .text text
  else if name = "wordcount" then return .whole (wordCount false printed)
  else if name = "abs" then magnitude value
  else if name = "int" then
    let base ← number 1 10
    let found ← whole? base.toNat value
    return (found.map Datum.whole).getD ((parameter 0).getD (.whole 0))
  else if name = "float" then
    let found ← fraction? value
    return (found.map Datum.fraction).getD
      ((parameter 0).getD (.fraction (Fraction.ofInt 0)))
  else if name = "round" then
    let places ← number 0 0
    rounded value places (((parameter 1).getD (.text "common")).print)
  else if name = "attr" then
    match value with
    | .undefined forbidden => throw (Datum.refusal forbidden)
    | value => return (value.member? ((parameter 0).getD .nothing).print).getD (.undefined false)
  else if name = "length" ∨ name = "count" then return .whole (← value.length)
  else if name = "first" then return (← value.items?).headD (.undefined false)
  else if name = "last" then
    match value with
    | .series .stream _ => throw (.mismatch "'generator' object is not reversible")
    | value =>
      match value.items? with
      | .ok items => return items.getLast?.getD (.undefined false)
      | .error (.mismatch _) =>
        throw (.mismatch ("'" ++ value.kind ++ "' object is not reversible"))
      | .error fault => throw fault
  else if name = "join" then
    let items ← value.items?
    let items ← match parameter 1 with
      | some path => items.mapM (along path)
      | none => pure items
    let between := ((parameter 0).getD (.text [])).print
    return .text (List.intercalate between (items.map Datum.print))
  else if name = "list" then return .series .list (← value.items?)
  else if name = "reverse" then reversed value
  else if name = "items" then return .series .stream (← entries value)
  else if name = "dictsort" then
    let entries ← entries value
    let keys ← sorted (holds 0) (entries.filterMap fun entry =>
      match entry with
      | .series _ (key :: _) => some key
      | _ => none)
    let ordered := keys.filterMap fun key => entries.find? fun entry =>
      match entry with
      | .series _ (other :: _) => Datum.same key other
      | _ => false
    return .series .list (if holds 2 then ordered.reverse else ordered)
  else if name = "sort" then arranged (holds 0) (holds 1) (← value.items?)
  else if name = "unique" then return .series .stream (distinct (holds 0) (← value.items?))
  else if name = "max" then extreme ">" (holds 0) (← value.items?)
  else if name = "min" then extreme "<" (holds 0) (← value.items?)
  else if name = "sum" then
    let items ← value.items?
    items.foldlM (Datum.operate .add) ((parameter 1).getD (.whole 0))
  else throw (.mismatch [])

/-- The value that a filter of the table makes. -/
def applyPlain (name : Text) (value : Datum) (arguments : Arguments) : Except Fault Datum :=
  match signature? name with
  | none => .error (.mismatch [])
  | some signature => do
    let given ← signature.fit arguments
    make name value given

/-- The values that a filter makes of the items of a value, or the parts of the items along a
path. -/
def applyAll (value : Datum) (arguments : Arguments) : Except Fault Datum := do
  let items ← value.items?
  match Datum.namedItem? arguments.names arguments.named "attribute", arguments.values with
  | some path, _ => return .series .stream (← items.mapM (along path))
  | none, [] => throw .unsuitable
  | none, filter :: others => do
    let name := filter.print
    if names.contains name then
      let made ← items.mapM fun item =>
        applyPlain name item { arguments with values := others }
      return .series .stream made
    else throw .unknownNameInUse

/-- The items of a value for which a question has the given answer. Without a question it is
asked whether the item counts as true. -/
def chosen (isWanted : Bool) (value : Datum) (arguments : Arguments) : Except Fault Datum := do
  let items ← value.items?
  match arguments.values with
  | [] => return .series .stream (items.filter fun item => item.holds == isWanted)
  | question :: others => do
    let question := question.print
    if Question.names.contains question then
      let kept ← items.filterM fun item => do
        let answer ← Question.answer names question item { arguments with values := others }
        return answer == isWanted
      return .series .stream kept
    else throw .unknownNameInUse

/-- The value that a filter makes. -/
def apply (name : Text) (value : Datum) (arguments : Arguments) : Except Fault Datum :=
  if name = "format" then
    if arguments.values.isEmpty = false ∧ arguments.names ≠ [] then .error .unsuitable
    else
      let filling : Datum := if arguments.names = [] then .series .tuple arguments.values
        else .record (arguments.names.map Datum.text) arguments.named
      (Pattern.fill value.print filling).map Datum.text
  else if name = "map" then applyAll value arguments
  else if name = "select" then chosen true value arguments
  else if name = "reject" then chosen false value arguments
  else applyPlain name value arguments

end Daybook.Template.Filter
