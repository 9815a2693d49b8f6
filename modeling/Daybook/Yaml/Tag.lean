import Daybook.Yaml.Moment
import Daybook.Yaml.Number

/-!
# Tags

A tag says what kind of value a node is. A plain scalar without a tag has the one that its
characters say: nothing, a truth value, a number, a moment, or one of two signs that have a
meaning of their own in a mapping. All other scalars are texts.
-/
namespace Daybook.Yaml

/-- The kinds of values. -/
inductive Tag where
  | nothing
  | truth
  | whole
  | fraction
  | bytes
  | moment
  | text
  | sequence
  | mapping
  | set
  /-- A sequence of pairs. -/
  | pairs
  /-- The key that takes over the pairs of other mappings. -/
  | merge
  /-- The key of the value that stands for a whole mapping. -/
  | default
  | unknown
  deriving DecidableEq, Repr

/-- The words for nothing. -/
def nothingWords : List Text := ["", "~", "null", "Null", "NULL"]

/-- The words for truth values. -/
def truthWords : List Text :=
  ["yes", "Yes", "YES", "true", "True", "TRUE", "on", "On", "ON",
    "no", "No", "NO", "false", "False", "FALSE", "off", "Off", "OFF"]

/-- The truth value of a word in capital letters or small ones. -/
def truthOf (word : Text) : Except Fault Bool :=
  let small := word.map Char.toLower
  if ["yes", "true", "on"].any fun known => small = known.toList then .ok true
  else if ["no", "false", "off"].any fun known => small = known.toList then .ok false
  else .error (.notATruth small)

namespace Tag

/-- The tag of a scalar by its characters. A line feed at the end does not count. -/
def ofPlain (text : Text) : Tag :=
  let line := if text.getLast? = some '\n' then text.dropLast else text
  if line = [] ∧ text ≠ [] then .text
  else if nothingWords.contains line then .nothing
  else if truthWords.contains line then .truth
  else if isFraction line then .fraction
  else if isWhole line then .whole
  else if line = "<<".toList then .merge
  else if line = ['='] then .default
  else if WrittenMoment.isPlain line then .moment
  else if line = ['!'] ∨ line = ['&'] ∨ line = ['*'] then .unknown
  else .text

/-- The common tags by their names. -/
def common : List (Text × Tag) :=
  [("null", .nothing), ("bool", .truth), ("int", .whole), ("float", .fraction),
    ("binary", .bytes), ("timestamp", .moment), ("str", .text), ("seq", .sequence),
    ("map", .mapping), ("set", .set), ("omap", .pairs), ("pairs", .pairs), ("merge", .merge),
    ("value", .default)]

/-- The tag of a written name. -/
def ofText (name : Text) : Tag :=
  let place : Text := "tag:yaml.org,2002:"
  if place.isPrefixOf name then (common.lookup (name.drop place.length)).getD .unknown
  else .unknown

end Tag

end Daybook.Yaml
