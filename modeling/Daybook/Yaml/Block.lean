import Daybook.Yaml.Lexeme

/-!
# Block scalars

A block scalar consists of the lines that are indented further than the block around it. In a
literal one line breaks stay as they are; in a folded one a single line break between two lines
that begin with no blank counts as a space. A header says how far the lines are indented, if
the first line does not show it, and what happens to the line breaks at the end.
-/
namespace Daybook.Yaml

/-- How the end of a block scalar is treated: the last line break is dropped, or kept, or
kept with all blank lines after it. -/
inductive Chomping where
  | strip
  | clip
  | keep
  deriving DecidableEq

/-- The chomping that a character of a header says. -/
def chomping? (c : Char) : Option Chomping :=
  if c = '+' then some .keep else if c = '-' then some .strip else none

/-- The indentation that a character of a header says. -/
def indentation? (c : Char) : Option Nat :=
  if '1' ≤ c ∧ c ≤ '9' then some (c.toNat - 0x30) else none

namespace Scanning

/-- What one character of a header says, if it says it. -/
def headerPart {α : Type} (part? : Char → Option α) : Scanning (Option α) := do
  let said := part? (← peek 0)
  if said.isSome then forward 1
  return said

/-- The chomping and the indentation that stand after the mark of a block scalar, in either
order. -/
def blockHeader : Scanning (Chomping × Option Nat) := do
  let first ← headerPart chomping?
  let indentation ← headerPart indentation?
  let chomping ←
    if first.isNone && indentation.isSome then headerPart chomping? else pure first
  let c ← peek 0
  if !(isEnd c || c == ' ') then throw .lexeme
  return (chomping.getD .clip, indentation)

/-- The blank lines at the beginning of a block scalar and the widest indentation of one of
them. -/
def blockIndentation (widest : Nat) : Nat → Scanning (Text × Nat)
  | 0 => return ([], widest)
  | allowance + 1 => do
    if (← peek 0) == ' ' then
      forward 1
      blockIndentation (max widest (← get).column) allowance
    else
      let first ← lineBreak
      if first = [] then return ([], widest)
      let (more, widest) ← blockIndentation widest allowance
      return (first ++ more, widest)

/-- Past the indentation of a line of a block scalar. -/
def skipIndentation (indent : Nat) : Scanning Unit := do
  let column := (← get).column
  if column < indent then
    let spaces := ((← get).rest.take (indent - column)).takeWhile (· == ' ')
    forward spaces.length

/-- The blank lines between two lines of a block scalar. -/
def blockBreaks (indent : Nat) : Nat → Scanning Text
  | 0 => return []
  | allowance + 1 => do
    skipIndentation indent
    let first ← lineBreak
    if first = [] then return []
    let more ← blockBreaks indent allowance
    return first ++ more

/-- A line of a block scalar begins here. -/
def atBlockLine (indent : Nat) : Scanning Bool := do
  if (← get).column = indent then return (← peek 0) != '\x00' else return false

/-- The next character begins no blank. -/
def atInk : Scanning Bool := do
  let c ← peek 0
  return c != ' ' && c != '\t'

/-- The lines of a block scalar after the blank lines `blank`. -/
def blockLines (isFolded : Bool) (chomping : Chomping) (indent : Nat) (blank : Text) :
    Nat → Scanning Text
  | 0 => return []
  | allowance + 1 => do
    if ← atBlockLine indent then
      let inked ← atInk
      let line ← readWhile fun c => !isEnd c
      let ending ← lineBreak
      let more ← blockBreaks indent (← bound)
      if ← atBlockLine indent then
        let joins ← if isFolded && ending == ['\n'] && inked then atInk else pure false
        let glue := if joins then (if more = [] then [' '] else []) else ending
        let others ← blockLines isFolded chomping indent more allowance
        return blank ++ line ++ glue ++ others
      else
        let tail := match chomping with
          | .strip => []
          | .clip => ending
          | .keep => ending ++ more
        return blank ++ line ++ tail
    else return if chomping = .keep then blank else []

/-- A block scalar, folded or literal, of which the mark comes next. -/
def block (isFolded : Bool) : Scanning Text := do
  forward 1
  let (chomping, indentation) ← blockHeader
  skipLine
  let least := (max ((← get).indent + 1) 1).toNat
  match indentation with
  | some indentation =>
    let indent := least + indentation - 1
    let blank ← blockBreaks indent (← bound)
    blockLines isFolded chomping indent blank (← bound)
  | none =>
    let (blank, widest) ← blockIndentation 0 (← bound)
    blockLines isFolded chomping (max least widest) blank (← bound)

end Scanning

end Daybook.Yaml
