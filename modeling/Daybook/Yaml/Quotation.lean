import Daybook.Yaml.Lexeme

/-!
# Quoted scalars

A quoted scalar stands between single or double quotation marks and may go over several lines.
A single line break in it counts as a space, and blank lines count as line breaks. Between
double marks a backslash escapes a character, names one by its code, or joins two lines;
between single marks a doubled mark stands for itself.
-/
namespace Daybook.Yaml

/-- The character that an escape of one letter stands for. -/
def escape? : Char → Option Char
  | '0' => some '\x00'
  | 'a' => some '\x07'
  | 'b' => some '\x08'
  | 't' => some '\t'
  | '\t' => some '\t'
  | 'n' => some '\n'
  | 'v' => some '\x0b'
  | 'f' => some '\x0c'
  | 'r' => some '\r'
  | 'e' => some '\x1b'
  | ' ' => some ' '
  | '"' => some '"'
  | '\\' => some '\\'
  | '/' => some '/'
  | 'N' => some '\u0085'
  | '_' => some '\u00a0'
  | 'L' => some '\u2028'
  | 'P' => some '\u2029'
  | _ => none

/-- The number of hexadecimal digits of an escape by code. -/
def escapeWidth? : Char → Option Nat
  | 'x' => some 2
  | 'u' => some 4
  | 'U' => some 8
  | _ => none

/-- The character of a code. One half of a pair stands for no character, and the replacement
character takes its place. -/
def charOfCode (code : Nat) : Except Fault Char :=
  if 0x7FFFFFFF < code then .error .characterOverflow
  else if 0x10FFFF < code then .error .noSuchCharacter
  else .ok (if code.isValidChar then Char.ofNat code else '\uFFFD')

/-- What a line break and the line breaks after it amount to: one line feed alone is a
space, and otherwise the first line feed is dropped. -/
def folded (first more : Text) : Text :=
  if first = ['\n'] then (if more = [] then [' '] else more) else first ++ more

namespace Scanning

/-- The number that the next hexadecimal digits write, of which all have to be there. -/
def hexDigits (value : Nat) (position : Nat) : Nat → Scanning Nat
  | 0 => return value
  | count + 1 => do
    match Text.hexValue (← peek position) with
    | some digit => hexDigits (16 * value + digit) (position + 1) count
    | none => throw .lexeme

/-- The line breaks of the blank lines that follow a line break in a quoted scalar. -/
def quotedBreaks : Nat → Scanning Text
  | 0 => return []
  | allowance + 1 => do
    if ← atDocumentMark then throw .lexeme
    skip fun c => c == ' ' || c == '\t'
    let first ← lineBreak
    if first = [] then return []
    let more ← quotedBreaks allowance
    return first ++ more

/-- An escape after its backslash. -/
def escape : Scanning Text := do
  let letter ← peek 0
  match escape? letter, escapeWidth? letter with
  | some meant, _ =>
    forward 1
    return [meant]
  | none, some width =>
    forward 1
    let code ← hexDigits 0 0 width
    let c ← charOfCode code
    forward width
    return [c]
  | none, none =>
    if (← lineBreak) = [] then throw .lexeme
    quotedBreaks (← bound)

/-- What spaces and line breaks in a quoted scalar amount to. -/
def quotedSpace : Scanning Text := do
  let space ← readWhile fun c => c == ' ' || c == '\t'
  if (← peek 0) == '\x00' then throw .lexeme
  let first ← lineBreak
  if first = [] then return space
  let more ← quotedBreaks (← bound)
  return folded first more

/-- The rest of a quoted scalar, up to and with its closing mark. -/
def quotedRest (mark : Char) : Nat → Scanning Text
  | 0 => throw .lexeme
  | allowance + 1 => do
    let plain ← readWhile fun c => !(isGap c || c == '\'' || c == '"' || c == '\\')
    let c ← peek 0
    let doubled ← if c == '\'' && mark == '\'' then (· == '\'') <$> peek 1 else pure false
    if c == mark && !doubled then
      forward 1
      return plain
    let piece ←
      if doubled then do
        forward 2
        pure ['\'']
      else if c == '\\' && mark == '"' then do
        forward 1
        escape
      else if c == '\'' || c == '"' || c == '\\' then do
        forward 1
        pure [c]
      else quotedSpace
    let others ← quotedRest mark allowance
    return plain ++ piece ++ others

/-- A quoted scalar, of which the opening mark comes next. -/
def quoted (mark : Char) : Scanning Text := do
  forward 1
  quotedRest mark (← bound)

end Scanning

end Daybook.Yaml
