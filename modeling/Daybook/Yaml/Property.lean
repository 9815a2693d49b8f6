import Daybook.Yaml.Lexeme

/-!
# Anchors, tags and declarations

An anchor gives a node a name, and an alias refers to the node of that name. A tag says what
kind of value a node is; its name may hold bytes that are written as two hexadecimal digits
after a percent sign. A declaration stands in a line of its own before a document and says
which version of the language is used, or what the handle of a tag stands for.
-/
namespace Daybook.Yaml

/-- The characters of the names of tags, all but the percent sign. -/
def isTagChar (c : Char) : Bool :=
  c.isAlphanum || "-;/?:@&=+$,_.!~*'()[]".toList.contains c

namespace Scanning

/-- The name of a node after the mark of an anchor or an alias, which comes next. -/
def nodeName : Scanning Text := do
  forward 1
  let name ← readWhile isNameChar
  let c ← peek 0
  if name = [] || !(isGap c || "?:,]\x7d%@`".toList.contains c) then throw .lexeme
  return name

/-- Bytes that are each written as two hexadecimal digits after a percent sign. -/
def percentBytes : Nat → Scanning Bytes
  | 0 => return []
  | allowance + 1 => do
    if (← peek 0) == '%' then
      forward 1
      let byte ← hexPair
      forward 2
      let others ← percentBytes allowance
      return byte :: others
    else return []
where
  /-- The byte of the next two digits. -/
  hexPair : Scanning UInt8 := do
    match Text.hexValue (← peek 0) with
    | none => throw .lexeme
    | some high =>
      match Text.hexValue (← peek 1) with
      | none => throw .lexeme
      | some low => return (16 * high + low).toUInt8

/-- The name of a tag, as far as it goes on. -/
def tagNameRest : Nat → Scanning Text
  | 0 => throw .lexeme
  | allowance + 1 => do
    let run ← readWhile isTagChar
    if (← peek 0) == '%' then
      match Text.Utf8.decode (← percentBytes (← bound)) with
      | .ok text =>
        let others ← tagNameRest allowance
        return run ++ text ++ others
      | .error _ => throw .lexeme
    else return run

/-- The name of a tag, which has at least one character. -/
def tagName : Scanning Text := do
  let name ← tagNameRest (← bound)
  if name = [] then throw .lexeme
  return name

/-- The handle of a tag: an exclamation mark, or a name between two of them. -/
def tagHandle : Scanning Text := do
  if (← peek 0) != '!' then throw .lexeme
  if (← peek 1) == ' ' then
    forward 1
    return ['!']
  forward 1
  let name ← readWhile isNameChar
  if (← peek 0) != '!' then throw .lexeme
  forward 1
  return '!' :: name ++ ['!']

/-- Nothing follows in this word. -/
def wordEnds : Scanning Unit := do
  let c ← peek 0
  if !(isEnd c || c == ' ') then throw .lexeme

/-- A tag: its handle, if it has one, and its name. One exclamation mark alone is a name. -/
def tag : Scanning (Option Text × Text) := do
  let next ← peek 1
  let made ←
    if next == '<' then do
      forward 2
      let name ← tagName
      if (← peek 0) != '>' then throw .lexeme
      forward 1
      pure (none, name)
    else if isGap next then do
      forward 1
      pure (none, ['!'])
    else do
      let rest := (← get).rest.drop 1
      let word := rest.takeWhile fun c => !(isEnd c || c == ' ' || c == '!')
      reach (word.length + 1)
      let handle ←
        if (rest.drop word.length).head? = some '!' then tagHandle
        else do
          forward 1
          pure ['!']
      let name ← tagName
      pure (some handle, name)
  wordEnds
  return made

/-- A number of a version. -/
def versionNumber : Scanning Nat := do
  let digits ← readWhile Char.isDigit
  if digits = [] then throw .lexeme
  match Text.natural 10 digits with
  | .ok number => return number
  | .error fault => throw (.notWhole 10 digits fault)

/-- A declaration, of which the percent sign comes next. -/
def declaration : Scanning Declaration := do
  forward 1
  let name ← readWhile isNameChar
  if name = [] then throw .lexeme
  wordEnds
  let made ←
    if name = "YAML".toList then do
      skip (· == ' ')
      let major ← versionNumber
      if (← peek 0) != '.' then throw .lexeme
      forward 1
      let _ ← versionNumber
      wordEnds
      pure (.version major)
    else if name = "TAG".toList then do
      skip (· == ' ')
      let handle ← tagHandle
      if (← peek 0) != ' ' then throw .lexeme
      skip (· == ' ')
      let meaning ← tagName
      wordEnds
      pure (.handle handle meaning)
    else do
      skip fun c => !isEnd c
      pure .other
  skipLine
  return made

end Scanning

end Daybook.Yaml
