import Daybook.Yaml.Source

/-!
# Lexemes of a settings file, and how they are looked for

Indentation and punctuation of a settings file are turned into lexemes: the beginnings and
ends of mappings and sequences, keys and values, scalars, and the marks of documents. This
module names the lexemes, says what is remembered in looking for them, and holds the steps
that everything else is made of: looking ahead, and going forward.

Looking at a character behind the end of a source finds the fault that waits there; where
there is none the file ends, and the end counts as the character U+0000.
-/
namespace Daybook.Yaml

/-- What a line that begins with a percent sign declares. -/
inductive Declaration where
  /-- The version of the language, of which only the first number matters. -/
  | version (major : Nat)
  /-- What a handle stands for in tags. -/
  | handle (handle meaning : Text)
  | other
  deriving DecidableEq

/-- A lexeme of a settings file. -/
inductive Lexeme where
  | streamEnd
  | documentStart
  | documentEnd
  | declaration (declaration : Declaration)
  | blockSequenceStart
  | blockMappingStart
  | blockEnd
  | flowSequenceStart
  | flowMappingStart
  | flowSequenceEnd
  | flowMappingEnd
  | blockEntry
  | flowEntry
  | key
  | value
  | alias (name : Text)
  | anchor (name : Text)
  /-- A tag, with a handle in front of its name or without one. -/
  | tag (handle : Option Text) (name : Text)
  | scalar (text : Text) (plain : Bool)
  deriving DecidableEq

/-- A node that is a key if a colon follows it on its line. -/
structure PossibleKey where
  /-- The number of lexemes before the node. -/
  number : Nat
  /-- The node cannot be anything else than a key. -/
  required : Bool
  index : Nat
  line : Nat
  column : Nat

/-- How far a settings file has been read. -/
structure Scan where
  rest : Text
  /-- The fault that waits behind the rest. -/
  behind : Option Fault := none
  index : Nat := 0
  line : Nat := 0
  column : Nat := 0
  /-- The number of open brackets and braces. -/
  depth : Nat := 0
  indent : Int := -1
  indents : List Int := []
  keyAllowed : Bool := true
  /-- The possible keys, each with the number of brackets open around it. -/
  keys : List (Nat × PossibleKey) := []
  /-- The lexemes that have been found and not yet taken. -/
  lexemes : List Lexeme := []
  /-- The number of lexemes that have been taken. -/
  taken : Nat := 0
  /-- All lexemes have been found. -/
  finished : Bool := false

/-- The line breaks. -/
def isBreak (c : Char) : Bool :=
  c == '\n' || c == '\u0085' || c == '\u2028' || c == '\u2029'

/-- A place where a line or the file ends. -/
def isEnd (c : Char) : Bool := c == '\x00' || isBreak c

/-- A place where a word ends. -/
def isGap (c : Char) : Bool := isEnd c || c == ' ' || c == '\t'

/-- The character that a line break counts as: the three customary ones are line feeds. -/
def breakText (c : Char) : Text := if c == '\u2028' || c == '\u2029' then [c] else ['\n']

/-- The characters of names of nodes, of handles and of declarations. -/
def isNameChar (c : Char) : Bool := c.isAlphanum || c == '-' || c == '_'

/-- One character further. -/
def Scan.step (scan : Scan) : Scan :=
  match scan.rest with
  | [] => scan
  | c :: rest =>
    let moved := { scan with rest, index := scan.index + 1 }
    if isBreak c then { moved with line := scan.line + 1, column := 0 }
    else if c == '\uFEFF' then moved
    else { moved with column := scan.column + 1 }

/-- Several characters further. -/
def Scan.steps (scan : Scan) : Nat → Scan
  | 0 => scan
  | count + 1 => scan.step.steps count

/-- A step of looking for lexemes. -/
abbrev Scanning := StateT Scan (Except Fault)

namespace Scanning

/-- Finds the fault behind the rest if the rest has no more than `count` characters. -/
def reach (count : Nat) : Scanning Unit := do
  let scan ← get
  if let some fault := scan.behind then
    if (scan.rest.drop count).isEmpty then throw fault

/-- The character `ahead` characters further on. -/
def peek (ahead : Nat) : Scanning Char := do
  reach ahead
  return (← get).rest.getD ahead '\x00'

/-- The given number of characters further. The character there is looked at. -/
def forward (count : Nat) : Scanning Unit := do
  reach count
  modify fun scan => scan.steps count

/-- The characters ahead that satisfy `sort`, up to one that does not. -/
def ahead (sort : Char → Bool) : Scanning Text := do
  let run := (← get).rest.takeWhile sort
  reach run.length
  return run

/-- Past the characters that satisfy `sort`, and what they are. -/
def readWhile (sort : Char → Bool) : Scanning Text := do
  let run ← ahead sort
  forward run.length
  return run

/-- Past the characters that satisfy `sort`. -/
def skip (sort : Char → Bool) : Scanning Unit := do
  let _ ← readWhile sort

/-- A number that bounds how many steps are left. -/
def bound : Scanning Nat := do
  return (← get).rest.length + 2

/-- With one more lexeme. -/
def push (lexeme : Lexeme) : Scanning Unit :=
  modify fun scan => { scan with lexemes := scan.lexemes ++ [lexeme] }

/-- Past a line break, and what it counts as; nothing where there is none. -/
def lineBreak : Scanning Text := do
  let c ← peek 0
  if isBreak c then
    forward 1
    return breakText c
  else return []

/-- Past the spaces and the comment at the end of a line. -/
def skipComment : Scanning Unit := do
  skip (· == ' ')
  if (← peek 0) == '#' then skip fun c => !isEnd c

/-- Past the rest of a line that has to be empty or a comment. -/
def skipLine : Scanning Unit := do
  skipComment
  if !isEnd (← peek 0) then throw .lexeme
  let _ ← lineBreak

/-- Three of the given character and a gap stand here. -/
def marks (c : Char) : Scanning Bool := do
  reach 2
  if (← get).rest.take 3 = [c, c, c] then return isGap (← peek 3) else return false

/-- A mark of a document stands here, if this is the beginning of a line. -/
def atDocumentMark : Scanning Bool := do
  if ← marks '-' then return true else marks '.'

end Scanning

end Daybook.Yaml
