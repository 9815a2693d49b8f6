import Daybook.Date
import Daybook.Text.Utf8

/-!
# Faults of a settings file

A settings file is written in YAML. This module names what can be wrong with one. Most faults
are found in the reading: characters that may not occur, lexemes, the arrangement of lexemes,
and references between nodes. The others say that a node is written like a number, a truth
value or a moment and stands for none.
-/
namespace Daybook.Yaml

/-- What is wrong with a time of day or its zone. -/
inductive TimeFault where
  | hour
  | minute
  | second
  /-- The zone is a day or more away, by so many seconds. -/
  | zone (seconds : Int)
  deriving DecidableEq, Repr

/-- What is wrong with a settings file. -/
inductive Fault where
  /-- Bytes that are no text. -/
  | undecodable (malformed : Text.Utf8.Malformed)
  /-- A character that may not occur in the file. -/
  | character
  /-- No lexeme can be read. -/
  | lexeme
  /-- A lexeme stands where it may not. -/
  | arrangement
  /-- A name stands for no node, or for two, or there is a second document. -/
  | reference
  /-- A node has no value of its kind. -/
  | value
  /-- An escape names a character past the last one. -/
  | noSuchCharacter
  /-- An escape names a character by a number that does not fit its word. -/
  | characterOverflow
  /-- A node that should be a whole number is none. -/
  | notWhole (base : Nat) (written : Text) (fault : Text.NumeralFault)
  /-- A node that should be a number with a point is none. -/
  | notAFraction (written : Text)
  /-- A node that should be a number has no characters, or only a sign. -/
  | emptyNumber
  /-- A node that should be a truth value is none. -/
  | notATruth (word : Text)
  /-- A node that should be a moment is none. -/
  | notAMoment
  /-- A node is written as a date, but the calendar has no such day. -/
  | noSuchDay (cause : Date.Fault)
  /-- A node is written as a moment, but the day has no such time. -/
  | noSuchTime (cause : TimeFault)
  deriving DecidableEq, Repr

end Daybook.Yaml
