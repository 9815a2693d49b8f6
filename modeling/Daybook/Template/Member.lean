import Daybook.Template.Reckoning

/-!
# Members and entries of values

What a value has under a name: parts of itself, and what it can do. A name behind a point means
a member, and only where there is none of that name the entry of a record; in square brackets it
is the other way round. What is there under neither is the undefined value. Names between
double underscores are those of things that templates have no access to.
-/
namespace Daybook.Template.Datum

/-- What texts can do from their end. -/
def textMethodsFromEnd : List Text :=
  ["rfind", "rindex", "rjust", "rpartition", "rsplit", "rstrip"]

/-- What texts can do from their beginning, or as a whole. -/
def textMethods : List Text :=
  ["capitalize", "center", "count", "endswith", "find", "format", "index", "isalnum", "isdecimal",
    "isdigit", "islower", "isspace", "isupper", "join", "ljust", "lower", "lstrip", "partition",
    "removeprefix", "removesuffix", "replace", "split", "splitlines", "startswith", "strip",
    "title", "upper", "zfill"]

/-- What dates can do. -/
def dateMethods : List Text :=
  ["ctime", "isocalendar", "isoformat", "isoweekday", "replace", "strftime", "timetuple",
    "toordinal", "weekday"]

/-- What records can do. -/
def recordMethods : List Text :=
  ["copy", "get", "items", "keys", "values"]

/-- What series can do. -/
def seriesMethods : List Text :=
  ["count", "index"]

/-- The first day that there is. -/
def firstDay : Date := ⟨1, 1, 1, by decide⟩

/-- The last day that there is. -/
def lastDay : Date := ⟨9999, 12, 31, by decide⟩

/-- The name is one of those that templates have no access to. -/
def isGuarded (name : Text) : Bool :=
  "__".toList.isPrefixOf name && "__".toList.isSuffixOf name && 4 < name.length

/-- The method of a value with the given name, if it is among the given ones. -/
def method? (owner : Datum) (methods : List Text) (name : Text) : Option Datum :=
  if methods.contains name then some (method owner name) else none

/-- The item of a series whose items have names. -/
def namedItem? (names : List Text) (items : List Datum) (name : Text) : Option Datum :=
  ((names.zip items).find? fun (known, _) => known == name).map (·.2)

/-- The member of a number. -/
def numberMember? (owner : Datum) (name : Text) : Option Datum :=
  if name = "real" then some owner
  else match owner.quantity? with
    | some (.whole n) =>
      if name = "numerator" then some (whole n)
      else if name = "denominator" then some (whole 1)
      else if name = "imag" then some (whole 0)
      else owner.method? ["bit_length", "conjugate"] name
    | some (.fraction _) =>
      if name = "imag" then some (fraction (Fraction.ofInt 0))
      else owner.method? ["conjugate", "is_integer"] name
    | none => none

/-- The member of a value, if it has one of that name. -/
def member? (owner : Datum) (name : Text) : Option Datum :=
  if isGuarded name then some (undefined true)
  else match owner with
    | text _ => owner.method? (textMethods ++ textMethodsFromEnd) name
    | date value =>
      if name = "year" then some (whole value.year)
      else if name = "month" then some (whole value.month)
      else if name = "day" then some (whole value.day)
      else if name = "min" then some (date firstDay)
      else if name = "max" then some (date lastDay)
      else owner.method? dateMethods name
    | whole _ => owner.numberMember? name
    | truth value => (whole (if value then 1 else 0)).numberMember? name
    | fraction _ => owner.numberMember? name
    | series .week items =>
      (namedItem? weekNames items name).orElse fun _ => owner.method? seriesMethods name
    | series .moment items =>
      (namedItem? momentNames items name).orElse fun _ => owner.method? seriesMethods name
    | series .stream _ => none
    | series _ _ => owner.method? seriesMethods name
    | record _ _ => owner.method? recordMethods name
    | range start stop step =>
      if name = "start" then some (whole start)
      else if name = "stop" then some (whole stop)
      else if name = "step" then some (whole step)
      else owner.method? seriesMethods name
    | _ => none

/-- What a value has under a name behind a point. -/
def member (owner : Datum) (name : Text) : Except Fault Datum :=
  match owner with
  | undefined forbidden => .error (refusal forbidden)
  | owner =>
    match owner.member? name with
    | some found => .ok found
    | none => (owner.entryAt? (text name)).map fun found => found.getD (undefined false)

/-- What a value has under a key in square brackets. -/
def entry (owner key : Datum) : Except Fault Datum := do
  match ← owner.entryAt? key with
  | some found => return found
  | none =>
    match key with
    | text name => return (owner.member? name).getD (undefined false)
    | _ => return undefined false

/-- A portion of a value between bounds. -/
def portion (owner start stop step : Datum) : Except Fault Datum := do
  match owner with
  | undefined forbidden => throw (refusal forbidden)
  | record _ _ => throw (.mismatch "unhashable type: 'slice'")
  | owner =>
    match ← owner.portion? start stop step with
    | some found => return found
    | none =>
      if owner.isSequence then
        throw (.mismatch
          "slice indices must be integers or None or have an __index__ method")
      else throw (.mismatch ("'" ++ owner.kind ++ "' object is not subscriptable"))

end Daybook.Template.Datum
