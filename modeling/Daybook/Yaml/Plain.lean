import Daybook.Yaml.Quotation

/-!
# Plain scalars

A plain scalar has no marks around it. It ends before a colon and a gap, before a comment, and
before a line that is not indented further than the block around it; within brackets it also
ends before the punctuation of lists. Line breaks in it count as in quoted scalars.
-/
namespace Daybook.Yaml

/-- Punctuation of lists in brackets and braces. -/
def isFlowMark (c : Char) : Bool :=
  c == ',' || c == '[' || c == ']' || c == '\x7b' || c == '\x7d'

/-- A character at which a word of a plain scalar ends, when `next` follows it. -/
def endsPlain (inFlow : Bool) (c next : Char) : Bool :=
  isGap c || (c == ':' && (isGap next || (inFlow && isFlowMark next))) ||
    (inFlow && (isFlowMark c || c == '?'))

/-- The number of characters of a plain scalar up to its next gap. -/
def plainLength (inFlow : Bool) : Text → Nat
  | [] => 0
  | c :: rest =>
    if endsPlain inFlow c (rest.headD '\x00') then 0 else plainLength inFlow rest + 1

namespace Scanning

/-- The characters of a plain scalar up to its next gap. Whether a colon ends them is seen at
the character after it. -/
def plainWord : Scanning Text := do
  let scan ← get
  let length := plainLength (scan.depth != 0) scan.rest
  reach length
  if (← peek length) == ':' then reach (length + 1)
  return scan.rest.take length

/-- The line breaks of the blank lines after a line of a plain scalar, or nothing at a mark of a
document. -/
def plainBreaks : Nat → Scanning (Option Text)
  | 0 => return some []
  | allowance + 1 => do
    if ← atDocumentMark then return none
    skip (· == ' ')
    let first ← lineBreak
    if first = [] then return some []
    let more ← plainBreaks allowance
    return more.map (first ++ ·)

/-- What the spaces and line breaks after a word of a plain scalar amount to. -/
def plainSpace : Scanning Text := do
  let space ← readWhile (· == ' ')
  let first ← lineBreak
  if first = [] then return space
  modify fun scan => { scan with keyAllowed := true }
  match ← plainBreaks (← bound) with
  | some more => return folded first more
  | none => return []

/-- The rest of a plain scalar after `space`, which only counts if something follows. -/
def plainRest (space : Text) : Nat → Scanning Text
  | 0 => return []
  | allowance + 1 => do
    if (← peek 0) == '#' then return []
    let word ← plainWord
    if word = [] then return []
    modify fun scan => { scan with keyAllowed := false }
    forward word.length
    let after ← plainSpace
    let scan ← get
    if after = [] then return space ++ word
    let comment ← peek 0
    if comment == '#' || (scan.depth == 0 && Int.ofNat scan.column < scan.indent + 1) then
      return space ++ word
    let others ← plainRest after allowance
    return space ++ word ++ others

/-- A plain scalar, which begins here. -/
def plain : Scanning Text := do
  plainRest [] (← bound)

/-- A plain scalar may begin here. -/
def beginsPlain : Scanning Bool := do
  let c ← peek 0
  let special := isGap c || isFlowMark c || "-?:#&*!|>'\"%@`".toList.contains c
  if !special then return true
  let next ← peek 1
  let depth := (← get).depth
  return !isGap next && (c == '-' || (depth == 0 && (c == '?' || c == ':')))

end Scanning

end Daybook.Yaml
